import CdcBadge.CborHeads

/-!
# CBOR items and what a skip takes of them

An item is a tree of heads with their data. The skip counts the entries of arrays and maps but not the
content of a tag, and it takes every two-byte simple value.
-/

namespace CdcBadge.Cbor

open Handler

/-- A head, the data of a string, and the items it contains. -/
inductive Node
  | mk (head : Head) (data : Bytes) (items : List Node)

def Head.isContainer (k : Head) : Bool:=k.type=.array ∨ k.type=.map

def Head.content (k : Head) : ℕ:=
  match k.type with
  | .array=>k.value
  | .map=>2*k.value
  | .tag=>1
  | _=>0

def Head.Valid (k : Head) : Prop:=k.type=.simple→k.info=24 → 32 ≤ k.value

namespace Node

mutual

def encoding : Node→Bytes
  | mk head data items=>head.encoding++data++encodings items

def encodings : List Node→Bytes
  | []=>[]
  | n::ns=>n.encoding++encodings ns

end

/-- Every head of the item is one that `P` allows, with data of its size and as many items as `count` says. -/
inductive Formed (count : Head → ℕ) (P : Head→Prop) : Node→Prop
  | mk {head : Head} {data : Bytes} {items : List Node} (hdata : data.length=head.dataSize)
      (hitems : items.length=count head) (hhead : P head) (hall : ∀ n∈items, Formed count P n) :
      Formed count P (mk head data items)

abbrev WellFormed (n : Node) : Prop:=n.Formed Head.content Head.Valid

/-- `P` holds of every head of the item. -/
inductive Every (P : Head→Prop) : Node→Prop
  | mk {head : Head} {data : Bytes} {items : List Node} (hhead : P head) (hall : ∀ n∈items, Every P n) :
      Every P (mk head data items)

/-- At most so many arrays and maps are nested. -/
inductive DepthLe : ℕ→Node→Prop
  | container {d : ℕ} {head : Head} {data : Bytes} {items : List Node} (hhead : head.isContainer=true)
      (hall : ∀ n∈items, DepthLe d n) : DepthLe (d+1) (mk head data items)
  | other {d : ℕ} {head : Head} {data : Bytes} {items : List Node} (hhead : head.isContainer=false)
      (hall : ∀ n∈items, DepthLe d n) : DepthLe d (mk head data items)

end Node

def Head.Small (k : Head) : Prop:=k.isContainer=true→k.value ≤ maxContainerSize

def itemsSkipped (type : MajorType) (value : ℕ) : ℕ:=
  match type with
  | .array=>value
  | .map=>value*2
  | _=>0

def Head.skipped (k : Head) : ℕ:=itemsSkipped k.type k.value

/-- What a skip takes for an item, with so many levels to go: a tag has no content. -/
inductive Node.Taken : ℕ→Node→Prop
  | mk {levels : ℕ} {head : Head} {data : Bytes} {items : List Node} (hdata : data.length=head.dataSize)
      (hitems : items.length=head.skipped) (hsmall : head.Small) (hall : ∀ n∈items, Taken levels n) :
      Taken (levels+1) (mk head data items)

theorem skipItemImpl_succ (levels : ℕ) :
    skipItemImpl (levels+1)=readItem >>= fun item=>
      if (item.type=.array ∨ item.type=.map) ∧ maxContainerSize < item.value then stop ()
      else iterate (itemsSkipped item.type item.value) (fun _=>skipItemImpl levels) ():=by
  rw [skipItemImpl]
  congr 1
  funext item
  cases htype : item.type <;> simp [itemsSkipped,iterate]

section Skipping

variable {levels : ℕ} {r r' : Reader}

theorem iterate_taken {count : ℕ} (hr : r.error=false)
    (hskip : ∀ {r r'}, skipItemImpl levels r=(.ok (),r') → r'.error=false ∧
      ∃ n : Node, n.Taken levels ∧ r.rest=n.encoding++r'.rest)
    (h : iterate count (fun _=>skipItemImpl levels) () r=(.ok (),r')) :
    r'.error=false ∧ ∃ ns : List Node, ns.length=count ∧ (∀ n∈ns, n.Taken levels) ∧
      r.rest=Node.encodings ns++r'.rest:=by
  induction count generalizing r with
  | zero=>
    cases h
    exact ⟨hr,[],rfl,by simp,rfl⟩
  | succ count ih=>
    obtain ⟨⟨⟩,s,hfirst,hrest⟩:=bind_ok.mp h
    obtain ⟨hs,n,hn,hn'⟩:=hskip hfirst
    obtain ⟨hr',ns,hlength,hns,hns'⟩:=ih hs hrest
    refine ⟨hr',n::ns,by rw [List.length_cons,hlength],List.forall_mem_cons.mpr ⟨hn,hns⟩,?_⟩
    rw [hn',hns',Node.encodings,List.append_assoc]

theorem taken_of_skip (h : skipItemImpl levels r=(.ok (),r')) :
    r'.error=false ∧ ∃ n : Node, n.Taken levels ∧ r.rest=n.encoding++r'.rest:=by
  induction levels generalizing r r' with
  | zero=>cases h
  | succ levels ih=>
    rw [skipItemImpl_succ] at h
    obtain ⟨item,s,hitem,h⟩:=bind_ok.mp h
    obtain ⟨k,data,-,hs,hrest,hdata,rfl⟩:=readItem_ok.mp hitem
    split_ifs at h with hlarge
    · cases h
    · obtain ⟨hr',ns,hlength,hns,hns'⟩:=iterate_taken hs ih h
      have hsmall : k.Small:=by
        intro hcontainer
        by_contra hvalue
        exact hlarge ⟨of_decide_eq_true hcontainer,not_le.mp hvalue⟩
      refine ⟨hr',.mk k data ns,.mk hdata hlength hsmall hns,?_⟩
      rw [hrest,hns',Node.encoding]
      simp only [List.append_assoc]

theorem skip_of_taken {n : Node} (hn : n.Taken levels) : Reads (skipItemImpl levels) n.encoding ():=by
  induction hn with
  | @mk levels head data items hdata hitems hsmall hall ih=>
    have hsome : ∀ ns : List Node, (∀ n∈ns, Reads (skipItemImpl levels) n.encoding ()) →
        Reads (iterate ns.length (fun _=>skipItemImpl levels) ()) (Node.encodings ns) ():=by
      intro ns hns
      induction ns with
      | nil=>exact Reads.pure ()
      | cons n ns ihns=>
        obtain ⟨hn,hns⟩:=List.forall_mem_cons.mp hns
        rw [Node.encodings]
        exact hn.bind (ihns hns)
    have hitem : Reads readItem (head.encoding++data) ⟨head.type,head.value,data⟩:=fun more=>
      readItem_ok.mpr ⟨head,data,rfl,rfl,rfl,hdata,rfl⟩
    rw [skipItemImpl_succ,Node.encoding]
    apply hitem.bind
    have hcount : itemsSkipped head.type head.value=items.length:=hitems.symm
    have hnot : ¬((head.type=.array ∨ head.type=.map) ∧ maxContainerSize < head.value):=fun hlarge=>
      absurd (hsmall (decide_eq_true hlarge.1)) (not_le.mpr hlarge.2)
    dsimp only
    rw [if_neg hnot,hcount]
    exact hsome items ih

theorem skipItem_ok : skipItem r=(.ok (),r') ↔ r.error=false ∧ r'.error=false ∧
    ∃ n : Node, n.Taken (maxRecursionDepth+1) ∧ r.rest=n.encoding++r'.rest:=by
  constructor
  · intro h
    obtain ⟨hr',n,hn,hrest⟩:=taken_of_skip h
    refine ⟨?_,hr',n,hn,hrest⟩
    rw [skipItem,skipItemImpl_succ] at h
    obtain ⟨item,s,hitem,-⟩:=bind_ok.mp h
    obtain ⟨k,data,hr,-⟩:=readItem_ok.mp hitem
    exact hr
  · rintro ⟨hr,hr',n,hn,hrest⟩
    obtain ⟨rest,error⟩:=r
    obtain ⟨rest',error'⟩:=r'
    obtain rfl : error=false:=hr
    obtain rfl : error'=false:=hr'
    obtain rfl : rest=n.encoding++rest':=hrest
    exact skip_of_taken hn rest'

end Skipping

namespace Node

variable {n m : Node} {ns ms : List Node} {xs ys : Bytes} {levels d : ℕ} {count : Head → ℕ} {P Q : Head→Prop}

theorem encodings_append (ns ms : List Node) : encodings (ns++ms)=encodings ns++encodings ms:=by
  induction ns with
  | nil=>rfl
  | cons n ns ih=>rw [List.cons_append,encodings,encodings,ih,List.append_assoc]

theorem Formed.encoding_inj (hn : n.Formed count P) (hm : m.Formed count P) (heq : n.encoding++xs=m.encoding++ys) :
    n=m ∧ xs=ys:=by
  induction hn generalizing m xs ys with
  | @mk head data items hdata hitems hhead hall ih=>
    cases hm with
    | @mk head' data' items' hdata' hitems' hhead' hall'=>
      simp only [encoding,List.append_assoc] at heq
      obtain ⟨rfl,htail⟩:=Head.encoding_inj heq
      obtain ⟨rfl,hcontent⟩:=List.append_inj htail (hdata.trans hdata'.symm)
      have hlists : ∀ (ns ms : List Node), ns.length=ms.length→(∀ n∈ns, n∈items)→(∀ m∈ms, m∈items') →
          ∀ {xs ys : Bytes}, encodings ns++xs=encodings ms++ys→ns=ms ∧ xs=ys:=by
        intro ns ms hlength hns hms
        induction ns generalizing ms with
        | nil=>
          intro xs ys heq
          rw [List.length_eq_zero_iff.mp hlength.symm] at heq ⊢
          exact ⟨rfl,heq⟩
        | cons n ns ihns=>
          intro xs ys heq
          cases ms with
          | nil=>cases hlength
          | cons m ms=>
            obtain ⟨hfirst,hothers⟩:=List.forall_mem_cons.mp hns
            obtain ⟨hfirst',hothers'⟩:=List.forall_mem_cons.mp hms
            simp only [encodings,List.append_assoc] at heq
            obtain ⟨rfl,htail⟩:=ih n hfirst (hall' m hfirst') heq
            obtain ⟨rfl,hrest⟩:=ihns ms (Nat.succ.inj hlength) hothers hothers' htail
            exact ⟨rfl,hrest⟩
      obtain ⟨rfl,hrest⟩:=hlists items items' (hitems.trans hitems'.symm) (fun _ h=>h) (fun _ h=>h) hcontent
      exact ⟨rfl,hrest⟩

theorem Taken.formed (hn : n.Taken levels) : n.Formed Head.skipped fun _=>True:=by
  induction hn with
  | mk hdata hitems hsmall hall ih=>exact .mk hdata hitems trivial ih

theorem Taken.succ (hn : n.Taken levels) : n.Taken (levels+1):=by
  induction hn with
  | mk hdata hitems hsmall hall ih=>exact .mk hdata hitems hsmall ih

mutual

/-- The item as a skip sees it: what it takes for the item, and what it leaves behind. -/
def flatten : Node → List Node
  | mk head data items=>
    mk head data ((flattens items).take head.skipped)::(flattens items).drop head.skipped

def flattens : List Node → List Node
  | []=>[]
  | n::ns=>flatten n++flattens ns

end

mutual

theorem encodings_flatten : ∀ n : Node, encodings (flatten n)=n.encoding
  | mk head data items=>by
    rw [flatten,encodings,encoding,encoding,List.append_assoc,List.append_assoc,← encodings_append,
      List.take_append_drop,encodings_flattens items,List.append_assoc]

theorem encodings_flattens : ∀ ns : List Node, encodings (flattens ns)=encodings ns
  | []=>rfl
  | n::ns=>by rw [flattens,encodings_append,encodings_flatten n,encodings_flattens ns,encodings]

end

theorem mem_flattens : m∈flattens ns ↔ ∃ n∈ns, m∈flatten n:=by
  induction ns with
  | nil=>simp [flattens]
  | cons n ns ih=>simp [flattens,ih]

theorem length_flatten_pos (n : Node) : 0 < (flatten n).length:=by
  cases n
  simp [flatten]

theorem length_le_flattens (ns : List Node) : ns.length ≤ (flattens ns).length:=by
  induction ns with
  | nil=>exact le_rfl
  | cons n ns ih=>
    have hn:=length_flatten_pos n
    rw [flattens,List.length_append,List.length_cons]
    omega

theorem skipped_le_content (k : Head) : k.skipped ≤ k.content:=by
  unfold Head.skipped Head.content itemsSkipped
  cases k.type <;> simp [Nat.mul_comm]

theorem WellFormed.formed_flatten (hn : n.WellFormed) : ∀ m∈flatten n, m.Formed Head.skipped fun _=>True:=by
  induction hn with
  | @mk head data items hdata hitems hhead hall ih=>
    have hsome : ∀ m∈flattens items, m.Formed Head.skipped fun _=>True:=by
      intro m hm
      obtain ⟨n,hn,hm⟩:=mem_flattens.mp hm
      exact ih n hn m hm
    have hlength : head.skipped ≤ (flattens items).length:=
      (skipped_le_content head).trans (hitems ▸ length_le_flattens items)
    intro m hm
    rw [flatten,List.mem_cons] at hm
    rcases hm with rfl | hm
    · exact .mk hdata (by rw [List.length_take,min_eq_left hlength]) trivial fun m hm=>hsome m (List.mem_of_mem_take hm)
    · exact hsome m (List.mem_of_mem_drop hm)

theorem WellFormed.taken_flatten (hn : n.WellFormed) (hsmall : n.Every Head.Small) (hdepth : n.DepthLe d) :
    ∀ m∈flatten n, m.Taken (d+1):=by
  induction hn generalizing d with
  | @mk head data items hdata hitems hhead hall ih=>
    obtain ⟨hsmall,hsmalls⟩:=hsmall
    have hlength : head.skipped ≤ (flattens items).length:=
      (skipped_le_content head).trans (hitems ▸ length_le_flattens items)
    have hcount : ((flattens items).take head.skipped).length=head.skipped:=by
      rw [List.length_take,min_eq_left hlength]
    cases hdepth with
    | @container d _ _ _ hcontainer hdepths=>
      have hsome : ∀ m∈flattens items, m.Taken (d+1):=by
        intro m hm
        obtain ⟨n,hn,hm⟩:=mem_flattens.mp hm
        exact ih n hn (hsmalls n hn) (hdepths n hn) m hm
      intro m hm
      rw [flatten,List.mem_cons] at hm
      rcases hm with rfl | hm
      · exact .mk hdata hcount hsmall fun m hm=>hsome m (List.mem_of_mem_take hm)
      · exact (hsome m (List.mem_of_mem_drop hm)).succ
    | other hother hdepths=>
      have hsome : ∀ m∈flattens items, m.Taken (d+1):=by
        intro m hm
        obtain ⟨n,hn,hm⟩:=mem_flattens.mp hm
        exact ih n hn (hsmalls n hn) (hdepths n hn) m hm
      have hnone : head.skipped=0:=by
        unfold Head.skipped itemsSkipped
        unfold Head.isContainer at hother
        cases htype : head.type <;> simp_all
      intro m hm
      rw [flatten,List.mem_cons] at hm
      rcases hm with rfl | hm
      · refine .mk hdata hcount hsmall fun m hm=>?_
        rw [hnone,List.take_zero] at hm
        cases hm
      · exact hsome m (List.mem_of_mem_drop hm)

end Node

/-- Neither the head of a tag nor a simple value below 32 in two bytes. -/
def Head.Plain (k : Head) : Prop:=k.type≠.tag ∧ k.Valid

theorem Head.skipped_eq_content {k : Head} (hk : k.type≠.tag) : k.skipped=k.content:=by
  unfold Head.skipped Head.content itemsSkipped
  cases htype : k.type with
  | tag=>exact absurd htype hk
  | map=>exact Nat.mul_comm _ _
  | _=>rfl

namespace Node

variable {n m : Node} {levels : ℕ}

theorem Taken.wellFormed (hn : n.Taken levels) (hplain : n.Every Head.Plain) : n.WellFormed:=by
  induction hn with
  | mk hdata hitems hsmall hall ih=>
    obtain ⟨⟨htag,hvalid⟩,hplains⟩:=hplain
    exact .mk hdata (hitems.trans (Head.skipped_eq_content htag)) hvalid fun n hn=>ih n hn (hplains n hn)

theorem WellFormed.plain (hn : n.WellFormed) (hm : flatten n=[m]) : n=m ∧ n.Every Head.Plain:=by
  induction hn generalizing m with
  | @mk head data items hdata hitems hvalid hall ih=>
    rw [flatten,List.cons_eq_cons,List.drop_eq_nil_iff] at hm
    obtain ⟨rfl,hnone⟩:=hm
    have hlong:=length_le_flattens items
    have htag : head.type≠.tag:=by
      intro htype
      have hskipped : head.skipped=0:=by rw [Head.skipped,htype]; rfl
      have hcontent : head.content=1:=by rw [Head.content,htype]
      omega
    have hcount : items.length=head.skipped:=hitems.trans (Head.skipped_eq_content htag).symm
    -- Each entry is flattened to one item, so none is flattened to more.
    have hsome : ∀ ns : List Node, (∀ n∈ns, n∈items)→(flattens ns).length ≤ ns.length →
        flattens ns=ns ∧ ∀ n∈ns, n.Every Head.Plain:=by
      intro ns hns hle
      induction ns with
      | nil=>exact ⟨rfl,by simp⟩
      | cons n ns ihns=>
        obtain ⟨hfirst,hothers⟩:=List.forall_mem_cons.mp hns
        have hpos:=length_flatten_pos n
        have hrest:=length_le_flattens ns
        rw [flattens,List.length_append,List.length_cons] at hle
        obtain ⟨k,hk⟩:=List.length_eq_one_iff.mp (show (flatten n).length=1 by omega)
        obtain ⟨rfl,hplain⟩:=ih n hfirst hk
        obtain ⟨hsame,hplains⟩:=ihns hothers (by omega)
        exact ⟨by rw [flattens,hk,hsame]; rfl,List.forall_mem_cons.mpr ⟨hplain,hplains⟩⟩
    obtain ⟨hsame,hplains⟩:=hsome items (fun _ h=>h) (by omega)
    refine ⟨?_,.mk ⟨htag,hvalid⟩ hplains⟩
    rw [hsame,List.take_of_length_le hcount.le]

end Node

/-- A skip that succeeds has taken one well-formed item, and it succeeds on every such item within its limits. -/
structure SkipsItem (r : Reader) : Prop where
  one : ∀ r', skipItem r=(.ok (),r')→∃ n : Node, n.WellFormed ∧ r.rest=n.encoding++r'.rest
  every : ∀ n : Node, n.WellFormed→n.DepthLe 8→n.Every Head.Small → r.error=false→n.encoding <+: r.rest →
    (skipItem r).1=.ok ()

/-- A skip does as it should just where what it takes for the item has no tag and no small simple value in two bytes. -/
theorem skipsItem_iff (r : Reader) :
    SkipsItem r ↔ r.error=true ∨ ∀ n : Node, n.Taken 9→n.encoding <+: r.rest→n.Every Head.Plain:=by
  constructor
  · rintro ⟨hone,-⟩
    by_cases hr : r.error=true
    · exact Or.inl hr
    · refine Or.inr fun n hn hfront=>?_
      obtain ⟨rest,hrest⟩:=hfront
      have hskip : skipItem r=(.ok (),{rest:=rest}):=
        skipItem_ok.mpr ⟨by simpa using hr,rfl,n,hn,hrest.symm⟩
      obtain ⟨m,hm,hmrest⟩:=hone {rest:=rest} hskip
      have hsame : n.encoding=m.encoding:=by
        have heq:=hrest.trans hmrest
        exact List.append_cancel_right heq
      -- The skip takes the first of the items that the well-formed one is flattened to.
      have hfirst:=hm.formed_flatten
      cases hflat : Node.flatten m with
      | nil=>
        have hpos:=Node.length_flatten_pos m
        rw [hflat] at hpos
        cases hpos
      | cons k ks=>
        rw [hflat] at hfirst
        have hencoding:=Node.encodings_flatten m
        rw [hflat,Node.encodings,← hsame] at hencoding
        obtain ⟨rfl,hks⟩:=(hfirst k List.mem_cons_self).encoding_inj hn.formed
          (hencoding.trans (List.append_nil _).symm)
        have hnil : ks=[]:=by
          cases ks with
          | nil=>rfl
          | cons k' ks=>
            obtain ⟨head,data,items⟩:=k'
            simp [Node.encodings,Node.encoding,Head.encoding] at hks
        rw [hnil] at hflat
        obtain ⟨rfl,hplain⟩:=hm.plain hflat
        exact hplain
  · intro h
    constructor
    · intro r' hskip
      obtain ⟨hr,-,n,hn,hrest⟩:=skipItem_ok.mp hskip
      have hplain:=h.resolve_left (by simp [hr]) n hn ⟨_,hrest.symm⟩
      exact ⟨n,hn.wellFormed hplain,hrest⟩
    · intro n hn hdepth hsmall hr hfront
      obtain ⟨rest,hrest⟩:=hfront
      have htaken:=hn.taken_flatten hsmall hdepth
      cases hflat : Node.flatten n with
      | nil=>
        have hpos:=Node.length_flatten_pos n
        rw [hflat] at hpos
        cases hpos
      | cons k ks=>
        rw [hflat] at htaken
        have hencoding:=Node.encodings_flatten n
        rw [hflat,Node.encodings] at hencoding
        have hskip : skipItem r=(.ok (),{rest:=Node.encodings ks++rest}):=by
          refine skipItem_ok.mpr ⟨hr,rfl,k,htaken k List.mem_cons_self,?_⟩
          rw [← hrest,← hencoding,List.append_assoc]
        rw [hskip]

/-- Of a tag only the head is skipped. -/
theorem not_skipsItem : ¬∀ r : Reader, SkipsItem r:=by
  intro h
  have hskip : skipItem {rest:=[0xC1,0x00]}=(.ok (),{rest:=[0x00]}):=by decide +kernel
  obtain ⟨n,hn,hrest⟩:=(h _).one _ hskip
  obtain ⟨hdata,hitems,-,-⟩:=hn
  rename_i head data items
  have hlength:=congrArg List.length hrest
  simp only [Node.encoding,Head.encoding,List.length_append,List.length_cons,List.length_nil] at hlength
  have hnil : items=[]:=by
    cases items with
    | nil=>rfl
    | cons k items=>
      obtain ⟨head',data',items'⟩:=k
      simp only [Node.encodings,Node.encoding,Head.encoding,List.length_append,List.length_cons] at hlength
      omega
  have hhead : head=⟨.tag,1,[],by decide,rfl⟩:=by
    have htag : (⟨.tag,1,[],by decide,rfl⟩ : Head).encoding++[0x00]=head.encoding++(data++([]++[0x00])):=by
      rw [hnil,Node.encoding,Node.encodings,List.append_nil,List.append_assoc] at hrest
      exact hrest
    exact (Head.encoding_inj htag).1.symm
  rw [hnil,hhead] at hitems
  cases hitems

end CdcBadge.Cbor
