import CdcBadge.Bytes

/-!
# Header lists

Elements of a tag, a length and a value, with tags of one or two bytes and lengths of one to
three; a template of tags and lengths without values, which tells how to cut the values that
stand elsewhere; and readers of a buffer that give up, or read a byte that is not there.
-/

namespace CdcBadge.Tlv

inductive TagBytes : ℕ→Bytes→Prop
  | short (t : UInt8) (h : t &&& 0x1F≠0x1F) : TagBytes t.toNat [t]
  | long (t t' : UInt8) (h : t &&& 0x1F=0x1F) : TagBytes (t.toNat*256+t'.toNat) [t,t']

inductive LengthBytes : ℕ→Bytes→Prop
  | short (l : UInt8) (h : l < 0x80) : LengthBytes l.toNat [l]
  | one (l : UInt8) : LengthBytes l.toNat [0x81,l]
  | two (h l : UInt8) : LengthBytes (h.toNat*256+l.toNat) [0x82,h,l]

/-- The bytes of an element with a tag and a value. -/
inductive Element : ℕ→Bytes→Bytes→Prop
  | mk {tag : ℕ} {value tb lb : Bytes} (htag : TagBytes tag tb) (hlength : LengthBytes value.length lb) :
    Element tag value (tb++lb++value)

/-- The bytes of elements one behind the other. -/
inductive Elements : List (ℕ × Bytes)→Bytes→Prop
  | nil : Elements [] []
  | cons {tag : ℕ} {value bytes rest : Bytes} {es : List (ℕ × Bytes)} (h : Element tag value bytes)
    (hrest : Elements es rest) : Elements ((tag,value)::es) (bytes++rest)

/-- The bytes of tags with their lengths. -/
inductive Template : List (UInt8 × ℕ)→Bytes→Prop
  | nil : Template [] []
  | cons {t : UInt8} {n : ℕ} {lb rest : Bytes} {ps : List (UInt8 × ℕ)} (hlength : LengthBytes n lb)
    (hrest : Template ps rest) : Template ((t,n)::ps) (t::(lb++rest))

def parts : List (UInt8 × ℕ)→Bytes → List (UInt8 × Bytes)
  | [], _=>[]
  | (t,n)::ps, values=>(t,values.take n)::parts ps (values.drop n)

def total (ps : List (UInt8 × ℕ)) : ℕ:=(ps.map Prod.snd).sum

section Last

variable {T : Type} [DecidableEq T]

def lastFrom (found : Option Bytes) (tag : T) (es : List (T × Bytes)) : Option Bytes:=
  es.foldl (fun found e=>if e.1=tag then some e.2 else found) found

def last (tag : T) (es : List (T × Bytes)) : Option Bytes:=lastFrom none tag es

@[simp] theorem lastFrom_nil (found : Option Bytes) (tag : T) : lastFrom found tag []=found:=rfl

@[simp] theorem lastFrom_cons (found : Option Bytes) (tag : T) (e : T × Bytes) (es : List (T × Bytes)) :
    lastFrom found tag (e::es)=lastFrom (if e.1=tag then some e.2 else found) tag es:=rfl

end Last

theorem Element.length_pos {tag : ℕ} {value bytes : Bytes} (h : Element tag value bytes) : 0 < bytes.length:=by
  obtain ⟨htag,-⟩:=h
  cases htag <;> simp

@[simp] theorem elements_nil {es : List (ℕ × Bytes)} : Elements es [] ↔ es=[]:=by
  constructor
  · intro h
    generalize hbs : ([] : Bytes)=bs at h
    cases h with
    | nil=>rfl
    | cons h hrest=>
      have hpos:=h.length_pos
      have hlength:=congrArg List.length hbs
      rw [List.length_nil,List.length_append] at hlength
      omega
  · rintro rfl
    exact .nil

@[simp] theorem template_nil {ps : List (UInt8 × ℕ)} : Template ps [] ↔ ps=[]:=by
  constructor
  · intro h
    cases h
    rfl
  · rintro rfl
    exact .nil

/-- What a reader of a buffer comes to. -/
inductive Scan (α : Type)
  | value (a : α)
  | giveUp
  | outside

namespace Scan

variable {α β : Type}

instance : Monad Scan where
  pure:=.value
  bind
    | .value a, k=>k a
    | .giveUp, _=>.giveUp
    | .outside, _=>.outside

@[simp] theorem pure_eq (a : α) : (pure a : Scan α)=.value a:=rfl

@[simp] theorem value_bind (a : α) (k : α → Scan β) : (Scan.value a >>= k)=k a:=rfl

@[simp] theorem giveUp_bind (k : α → Scan β) : (Scan.giveUp >>= k)=.giveUp:=rfl

def ofOption : Option α → Scan α
  | some a=>.value a
  | none=>.giveUp

@[simp] theorem ofOption_some (a : α) : ofOption (some a)=.value a:=rfl

@[simp] theorem ofOption_none : (ofOption none : Scan α)=.giveUp:=rfl

end Scan

def need (c : Prop) [Decidable c] : Scan Unit:=if c then .value () else .giveUp

@[simp] theorem need_true {c : Prop} [Decidable c] (h : c) : need c=.value ():=if_pos h

@[simp] theorem need_false {c : Prop} [Decidable c] (h : ¬c) : need c=.giveUp:=if_neg h

def byteAt (data : Bytes) (i : ℕ) : Scan UInt8:=
  match data[i]? with
  | some b=>.value b
  | none=>.outside

def copyAt (data : Bytes) (start len : ℕ) : Scan Bytes:=
  if start+len ≤ data.length then .value ((data.drop start).take len) else .outside

def window (data : Bytes) (start stop : ℕ) : Bytes:=(data.take stop).drop start

section Window

variable {data : Bytes} {start stop len : ℕ}

theorem length_window (hstop : stop ≤ data.length) : (window data start stop).length=stop-start:=by
  simp only [window,List.length_drop,List.length_take]
  omega

theorem byteAt_window {b : UInt8} {rest : Bytes} (h : window data start stop=b::rest) :
    start < stop ∧ byteAt data start=.value b ∧ window data (start+1) stop=rest:=by
  have hget : (window data start stop)[0]? = some b:=by rw [h]; rfl
  have hlength:=congrArg List.length h
  simp only [window,List.length_drop,List.length_take,List.length_cons] at hlength
  refine ⟨by omega,?_,?_⟩
  · rw [window,List.getElem?_drop,Nat.add_zero,List.getElem?_take_of_lt (by omega)] at hget
    unfold byteAt
    rw [hget]
  · have htail:=congrArg List.tail h
    rw [window,List.tail_drop] at htail
    exact htail

theorem take_window (h : start+len ≤ stop) :
    (window data start stop).take len=(data.drop start).take len:=by
  unfold window
  rw [List.drop_take,List.take_take,Nat.min_eq_left (by omega)]

theorem drop_window : (window data start stop).drop len=window data (start+len) stop:=by
  unfold window
  rw [List.drop_drop]

theorem copyAt_window (hstop : stop ≤ data.length) (h : start+len ≤ stop) :
    copyAt data start len=.value ((window data start stop).take len):=by
  unfold copyAt
  rw [if_pos (by omega),take_window h]

end Window

/-- A reader gives up where the parser does, and otherwise comes to what stands for the parser's result. It reads no
byte that is not there. -/
def Agrees {α β : Type} (R : α → β→Prop) (s : Scan α) : Option β→Prop
  | none=>s=.giveUp
  | some b=>∃ a, s=.value a ∧ R a b

/-- A place in a buffer, by its address and length, and what stands there. -/
structure At (data : Bytes) (place : ℕ × ℕ) (v : Bytes) : Prop where
  length : place.2=v.length
  inside : place.1+place.2 ≤ data.length
  window : window data place.1 (place.1+place.2)=v

theorem At.copied {data : Bytes} {place : ℕ × ℕ} {v : Bytes} (h : At data place v) {len : ℕ} (hlen : len ≤ place.2) :
    copyAt data place.1 len=.value (v.take len):=by
  have hinside:=h.inside
  rw [copyAt_window hinside (by omega),h.window]

theorem At.copied_all {data : Bytes} {place : ℕ × ℕ} {v : Bytes} (h : At data place v) :
    copyAt data place.1 place.2=.value v:=by
  rw [h.copied le_rfl,h.length,List.take_length]

/-- What a reader of the buffer up to an address has before it. -/
structure Rest (data : Bytes) (stop p : ℕ) (bs : Bytes) : Prop where
  le : p ≤ stop
  inside : stop ≤ data.length
  window : window data p stop=bs

namespace Rest

variable {data bs : Bytes} {stop p : ℕ} {b : UInt8}

theorem length (h : Rest data stop p bs) : bs.length=stop-p:=by
  rw [← h.window,length_window h.inside]

theorem nil (h : Rest data stop p []) : ¬p < stop:=by
  have hlength:=h.length
  rw [List.length_nil] at hlength
  omega

theorem cons (h : Rest data stop p (b::bs)) :
    p < stop ∧ byteAt data p=.value b ∧ Rest data stop (p+1) bs:=by
  obtain ⟨hlt,hbyte,hrest⟩:=byteAt_window h.window
  exact ⟨hlt,hbyte,⟨by omega,h.inside,hrest⟩⟩

theorem split (h : Rest data stop p bs) {len : ℕ} (hlen : len ≤ bs.length) :
    p+len ≤ stop ∧ At data (p,len) (bs.take len) ∧ Rest data stop (p+len) (bs.drop len):=by
  have hlength:=h.length
  have hinside:=h.inside
  have hfits : p+len ≤ stop:=by have:=h.le; omega
  refine ⟨hfits,⟨?_,?_,?_⟩,⟨hfits,h.inside,?_⟩⟩
  · rw [List.length_take]
    omega
  · exact le_trans hfits h.inside
  · rw [← h.window]
    unfold Tlv.window
    rw [List.drop_take,List.drop_take,List.take_take]
    congr 1
    omega
  · rw [← h.window,drop_window]

theorem whole (data : Bytes) : Rest data data.length 0 data:=by
  constructor
  · exact Nat.zero_le _
  · exact le_rfl
  · simp [Tlv.window]

theorem copied {v : Bytes} (h : Rest data stop p (v++bs)) :
    copyAt data p v.length=.value v ∧ Rest data stop (p+v.length) bs:=by
  have hfits : v.length ≤ (v++bs).length:=by simp
  obtain ⟨-,hat,hrest⟩:=h.split hfits
  rw [List.take_left] at hat
  rw [List.drop_left] at hrest
  exact ⟨hat.copied_all,hrest⟩

theorem array {n : ℕ} {a : ByteArr n} (h : Rest data stop p (a.toList++bs)) :
    copyAt data p n=.value a.toList ∧ Rest data stop (p+n) bs:=by
  have hcopied:=h.copied
  rwa [List.Vector.toList_length] at hcopied

end Rest

theorem At.rest {data v : Bytes} {place : ℕ × ℕ} (h : At data place v) :
    Rest data (place.1+place.2) place.1 v:=
  ⟨Nat.le_add_right ..,h.inside,h.window⟩

namespace Agrees

variable {α β α' β' : Type} {R : α → β→Prop} {R' : α' → β'→Prop} {s : Scan α} {o : Option β}

theorem giveUp : Agrees R .giveUp none:=rfl

theorem value {a : α} {b : β} (h : R a b) : Agrees R (.value a) (some b):=⟨a,rfl,h⟩

theorem bind (h : Agrees R s o) {k : α → Scan α'} {k' : β→Option β'} (hk : ∀ a b, R a b → Agrees R' (k a) (k' b)) :
    Agrees R' (s >>= k) (o.bind k'):=by
  cases o with
  | none=>
    rw [show s=.giveUp from h]
    exact giveUp
  | some b=>
    obtain ⟨a,rfl,hab⟩:=h
    exact hk a b hab

theorem eq_ofOption {s : Scan β} (h : Agrees Eq s o) : s=Scan.ofOption o:=by
  cases o with
  | none=>exact h
  | some b=>
    obtain ⟨a,rfl,rfl⟩:=h
    rfl

end Agrees

end CdcBadge.Tlv
