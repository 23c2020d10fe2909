import CdcBadge.HeaderLists
import CdcBadge.OpenPgpCalls

/-!
# The import of keys

PUT DATA DB takes an Extended Header List: the reference of a role, a template of the values
and the values. What the reader takes for such a list, where in it a stored key comes from,
and which bytes are read for it.
-/

namespace CdcBadge.OpenPgp

open Handler
open Tlv

section Readers

variable {bs rest value : Bytes} {n tag : ℕ}

theorem ehlLength_iff : ehlParseOne.ehlLength bs=some (n,rest) ↔ ∃ lb, LengthBytes n lb ∧ bs=lb++rest:=by
  constructor
  · intro h
    unfold ehlParseOne.ehlLength at h
    cases bs with
    | nil=>cases h
    | cons b bs=>
      dsimp only at h
      split_ifs at h with hshort hone htwo
      · cases h
        exact ⟨[b],.short b hshort,rfl⟩
      · subst hone
        cases bs with
        | nil=>cases h
        | cons l bs=>
          cases h
          exact ⟨[0x81,l],.one l,rfl⟩
      · subst htwo
        cases bs with
        | nil=>cases h
        | cons l₁ bs=>
          cases bs with
          | nil=>cases h
          | cons l₀ bs=>
            cases h
            exact ⟨[0x82,l₁,l₀],.two l₁ l₀,rfl⟩
  · rintro ⟨lb,hlb,rfl⟩
    cases hlb with
    | short l h=>exact if_pos h
    | one l=>rfl
    | two h l=>rfl

theorem ehlParseOne_iff : ehlParseOne bs=some (tag,value,rest) ↔ ∃ bytes, Element tag value bytes ∧ bs=bytes++rest:=by
  constructor
  · intro h
    unfold ehlParseOne at h
    obtain ⟨⟨tag',bs'⟩,htag,hbody⟩:=Option.bind_eq_some_iff.mp h
    obtain ⟨⟨len,bs''⟩,hlen,hvalue⟩:=Option.bind_eq_some_iff.mp hbody
    clear h hbody
    obtain ⟨lb,hlb,rfl⟩:=ehlLength_iff.mp hlen
    have htb : ∃ tb, TagBytes tag' tb ∧ bs=tb++(lb++bs''):=by
      cases bs with
      | nil=>cases htag
      | cons t bs=>
        dsimp only at htag
        split_ifs at htag with hlong
        · cases bs with
          | nil=>cases htag
          | cons t' bs=>
            cases htag
            exact ⟨[t,t'],.long t t' hlong,rfl⟩
        · cases htag
          exact ⟨[t],.short t hlong,rfl⟩
    obtain ⟨tb,htb,rfl⟩:=htb
    dsimp only at hvalue
    split_ifs at hvalue with hfits
    cases hvalue
    have hlength : (bs''.take len).length=len:=by rw [List.length_take]; omega
    refine ⟨tb++lb++bs''.take len,.mk htb (by rw [hlength]; exact hlb),?_⟩
    rw [List.append_assoc,List.append_assoc,List.take_append_drop]
  · rintro ⟨bytes,hbytes,rfl⟩
    cases hbytes with
    | mk htag hlength=>
      rename_i tb lb
      have hlen : ehlParseOne.ehlLength (lb++(value++rest))=some (value.length,value++rest):=
        ehlLength_iff.mpr ⟨lb,hlength,rfl⟩
      cases htag with
      | short t h=>
        simp [ehlParseOne,h,hlen]
      | long t t' h=>
        simp [ehlParseOne,h,hlen]

theorem ehlParseOne_element {bytes : Bytes} (h : Element tag value bytes) (rest : Bytes) :
    ehlParseOne (bytes++rest)=some (tag,value,rest):=
  ehlParseOne_iff.mpr ⟨bytes,h,rfl⟩

theorem collectImport_cons (fuel : ℕ) (b : UInt8) (found : Option Bytes × Option Bytes) :
    collectImport (fuel+1) (b::bs) found=(ehlParseOne (b::bs)).bind fun x=>
      collectImport fuel x.2.2 (if x.1=0x7F48 then (some x.2.1,found.2)
        else if x.1=0x5F48 then (found.1,some x.2.1) else found):=by
  rw [collectImport]
  · cases ehlParseOne (b::bs) <;> rfl
  · simp

/-- The header list is read to its end, and of several templates or values the last counts. -/
theorem collectImport_iff {fuel : ℕ} (hfuel : bs.length ≤ fuel) {found r : Option Bytes × Option Bytes} :
    collectImport fuel bs found=some r ↔
      ∃ es, Elements es bs ∧ r=(lastFrom found.1 0x7F48 es,lastFrom found.2 0x5F48 es):=by
  induction fuel generalizing bs found with
  | zero=>
    obtain rfl : bs=[]:=List.length_eq_zero_iff.mp (by omega)
    simp [collectImport,eq_comm]
  | succ fuel ih=>
    cases bs with
    | nil=>simp [collectImport,eq_comm]
    | cons b bs=>
      have hfound : ∀ (tag : ℕ) (v : Bytes) (es : List (ℕ × Bytes)),
          let found':=if tag=0x7F48 then (some v,found.2) else if tag=0x5F48 then (found.1,some v) else found
          (lastFrom found'.1 0x7F48 es,lastFrom found'.2 0x5F48 es) =
            (lastFrom found.1 0x7F48 ((tag,v)::es),lastFrom found.2 0x5F48 ((tag,v)::es)):=by
        intro tag v es
        rw [lastFrom_cons,lastFrom_cons]
        by_cases htmpl : tag=0x7F48
        · subst htmpl
          simp
        · by_cases hvalues : tag=0x5F48
          · subst hvalues
            simp
          · simp [htmpl,hvalues]
      rw [collectImport_cons,Option.bind_eq_some_iff]
      constructor
      · rintro ⟨⟨tag,v,rest⟩,hparse,h⟩
        obtain ⟨bytes,hbytes,heq⟩:=ehlParseOne_iff.mp hparse
        have hpos:=hbytes.length_pos
        have hlength:=congrArg List.length heq
        simp only [List.length_cons,List.length_append] at hlength hfuel
        have hshorter : rest.length ≤ fuel:=by omega
        obtain ⟨es,hes,rfl⟩:=(ih hshorter).mp h
        refine ⟨(tag,v)::es,?_,hfound tag v es⟩
        rw [heq]
        exact .cons hbytes hes
      · rintro ⟨es,hes,rfl⟩
        generalize hbs : b::bs=all at hes
        cases hes with
        | nil=>cases hbs
        | cons hbytes hes=>
          rename_i tag v bytes rest es
          have hpos:=hbytes.length_pos
          have hlength:=congrArg List.length hbs
          simp only [List.length_cons,List.length_append] at hlength hfuel
          have hshorter : rest.length ≤ fuel:=by omega
          exact ⟨(tag,v,rest),ehlParseOne_element hbytes rest,(ih hshorter).mpr ⟨es,hes,(hfound tag v es).symm⟩⟩

/-- The three numbers after the parts that a template cuts, in the order of the parts. -/
def numbersFrom (found : Option Bytes × Option Bytes × Option Bytes) (ps : List (UInt8 × Bytes)) :
    Option Bytes × Option Bytes × Option Bytes:=
  (lastFrom found.1 0x91 ps,lastFrom found.2.1 0x92 ps,lastFrom found.2.2 0x93 ps)

theorem template_cons_iff {t : UInt8} {tmpl : Bytes} {ps : List (UInt8 × ℕ)} : Template ps (t::tmpl) ↔
    ∃ n rest qs, ehlParseOne.ehlLength tmpl=some (n,rest) ∧ Template qs rest ∧ ps=(t,n)::qs:=by
  constructor
  · intro h
    generalize hbs : t::tmpl=bs at h
    cases h with
    | nil=>cases hbs
    | cons hlength hrest=>
      cases hbs
      exact ⟨_,_,_,ehlLength_iff.mpr ⟨_,hlength,rfl⟩,hrest,rfl⟩
  · rintro ⟨n,rest,qs,hlen,hqs,rfl⟩
    obtain ⟨lb,hlb,rfl⟩:=ehlLength_iff.mp hlen
    exact .cons hlb hqs

theorem parseRsaImport_cons (fuel : ℕ) (t : UInt8) (tmpl concat : Bytes) (found : Option Bytes × Option Bytes × Option Bytes) :
    parseRsaImport (fuel+1) (t::tmpl) concat found=(ehlParseOne.ehlLength tmpl).bind fun x=>
      if concat.length < x.1 then none
      else parseRsaImport fuel x.2 (concat.drop x.1) (numbersFrom found [(t,concat.take x.1)]):=by
  obtain ⟨e,p,q⟩:=found
  have hnumbers : ∀ val : Bytes, numbersFrom (e,p,q) [(t,val)] =
      if t=0x91 then (some val,p,q) else if t=0x92 then (e,some val,q)
        else if t=0x93 then (e,p,some val) else (e,p,q):=by
    intro val
    by_cases h₁ : t=0x91
    · subst h₁
      rfl
    by_cases h₂ : t=0x92
    · subst h₂
      rfl
    by_cases h₃ : t=0x93
    · subst h₃
      rfl
    simp [numbersFrom,h₁,h₂,h₃]
  simp only [hnumbers]
  rw [parseRsaImport]
  cases ehlParseOne.ehlLength tmpl <;> rfl

def allFound : Option Bytes × Option Bytes × Option Bytes→Option (Bytes × Bytes × Bytes)
  | (some e,some p,some q)=>some (e,p,q)
  | _=>none

theorem parseRsaImport_nil (fuel : ℕ) (concat : Bytes) (found : Option Bytes × Option Bytes × Option Bytes) :
    parseRsaImport fuel [] concat found=allFound found:=by
  obtain ⟨e,p,q⟩:=found
  cases fuel <;> cases e <;> cases p <;> cases q <;> rfl

theorem allFound_eq_some {found : Option Bytes × Option Bytes × Option Bytes} {e p q : Bytes} :
    allFound found=some (e,p,q) ↔ found=(some e,some p,some q):=by
  obtain ⟨e',p',q'⟩:=found
  cases e' <;> cases p' <;> cases q' <;> simp [allFound]

theorem parseRsaImport_nil_iff (fuel : ℕ) (concat : Bytes) (found : Option Bytes × Option Bytes × Option Bytes)
    (e p q : Bytes) : parseRsaImport fuel [] concat found=some (e,p,q) ↔
      ∃ ps, Template ps [] ∧ total ps ≤ concat.length ∧ numbersFrom found (parts ps concat)=(some e,some p,some q):=by
  rw [parseRsaImport_nil,allFound_eq_some]
  simp [numbersFrom,parts,total,Prod.ext_iff]

theorem parseRsaImport_iff {fuel : ℕ} {tmpl concat : Bytes} (hfuel : tmpl.length ≤ fuel)
    {found : Option Bytes × Option Bytes × Option Bytes} {e p q : Bytes} :
    parseRsaImport fuel tmpl concat found=some (e,p,q) ↔
      ∃ ps, Template ps tmpl ∧ total ps ≤ concat.length ∧ numbersFrom found (parts ps concat)=(some e,some p,some q):=by
  induction fuel generalizing tmpl concat found with
  | zero=>
    obtain rfl : tmpl=[]:=List.length_eq_zero_iff.mp (by omega)
    exact parseRsaImport_nil_iff 0 concat found e p q
  | succ fuel ih=>
    cases tmpl with
    | nil=>exact parseRsaImport_nil_iff _ concat found e p q
    | cons t tmpl=>
      rw [parseRsaImport_cons,Option.bind_eq_some_iff]
      constructor
      · rintro ⟨⟨n,rest⟩,hlen,h⟩
        dsimp only at h
        split_ifs at h with hshort
        obtain ⟨lb,hlb,htmpl⟩:=ehlLength_iff.mp hlen
        have hlength:=congrArg List.length htmpl
        rw [List.length_append] at hlength
        simp only [List.length_cons] at hfuel
        obtain ⟨ps,hps,htotal,hnumbers⟩:=(ih (by omega)).mp h
        rw [List.length_drop] at htotal
        refine ⟨(t,n)::ps,template_cons_iff.mpr ⟨n,rest,ps,hlen,hps,rfl⟩,?_,hnumbers⟩
        change n+total ps ≤ _
        omega
      · rintro ⟨ps,hps,htotal,hnumbers⟩
        obtain ⟨n,rest,qs,hlen,hqs,rfl⟩:=template_cons_iff.mp hps
        obtain ⟨lb,hlb,htmpl⟩:=ehlLength_iff.mp hlen
        have hlength:=congrArg List.length htmpl
        rw [List.length_append] at hlength
        simp only [List.length_cons] at hfuel
        change n+total qs ≤ _ at htotal
        refine ⟨(n,rest),hlen,?_⟩
        dsimp only
        rw [if_neg (by omega)]
        exact (ih (by omega)).mpr ⟨qs,hqs,by rw [List.length_drop]; omega,hnumbers⟩

end Readers

/-- The numbers of a key that is imported for a role. -/
inductive Import
  | ecc (r : Role) (scalar : Bytes)
  | rsa (r : Role) (e p q : Bytes)

def Import.role : Import→Role
  | .ecc r _=>r
  | .rsa r .. => r

/-- A payload that starts with an element `4D` of elements, the first of which stands for a role. -/
def Framed (r : Role) (es : List (ℕ × Bytes)) (data : Bytes) : Prop:=
  ∃ outer list trailing crt value head inner, Element 0x4D outer list ∧ data=list++trailing ∧
    Element crt value head ∧ outer=head++inner ∧ roleForKeyRef (UInt8.ofNat crt)=some r ∧ Elements es inner

/-- What is imported from a payload: for an ECC role the front of the values, and for an RSA role the parts of the
values that the template assigns to the three numbers. -/
inductive Conveys (isRsa : Role→Bool) : Import→Bytes→Prop
  | ecc {r : Role} {es : List (ℕ × Bytes)} {data values : Bytes} (hframed : Framed r es data) (hrole : isRsa r=false)
    (hvalues : last 0x5F48 es=some values) (hlong : 32 ≤ values.length) : Conveys isRsa (.ecc r (values.take 32)) data
  | rsa {r : Role} {es : List (ℕ × Bytes)} {data tmpl values e p q : Bytes} {ps : List (UInt8 × ℕ)}
    (hframed : Framed r es data) (hrole : isRsa r=true) (htmpl : last 0x7F48 es=some tmpl)
    (hvalues : last 0x5F48 es=some values) (hne : values≠[]) (hps : Template ps tmpl)
    (htotal : total ps ≤ values.length) (he : last 0x91 (parts ps values)=some e)
    (hp : last 0x92 (parts ps values)=some p) (hq : last 0x93 (parts ps values)=some q) :
    Conveys isRsa (.rsa r e p q) data

/-- The reading of `cmd_put_data_odd`. -/
def parseImport (isRsa : Role→Bool) (data : Bytes) : Option Import:=
  match ehlParseOne data with
  | none=>none
  | some (tag,outer,_)=>
    if tag≠0x4D then none
    else
      match ehlParseOne outer with
      | none=>none
      | some (crt,_,inner)=>
        match roleForKeyRef (UInt8.ofNat crt) with
        | none=>none
        | some r=>
          match collectImport inner.length inner (none,none) with
          | none=>none
          | some (tmpl,concat)=>
            let concat:=concat.getD []
            if concat=[] then none
            else if isRsa r then
              match tmpl with
              | none=>none
              | some tmpl=>
                match parseRsaImport tmpl.length tmpl concat (none,none,none) with
                | none=>none
                | some (e,p,q)=>some (.rsa r e p q)
            else if concat.length < 32 then none
            else some (.ecc r (concat.take 32))

def takeImport (isRsa : Role→Bool) (r : Role) (found : Option Bytes × Option Bytes) : Option Import:=
  found.2.bind fun concat=>
    if concat=[] then none
    else if isRsa r then
      found.1.bind fun tmpl=>(parseRsaImport tmpl.length tmpl concat (none,none,none)).bind fun x=>
        some (.rsa r x.1 x.2.1 x.2.2)
    else if concat.length < 32 then none
    else some (.ecc r (concat.take 32))

theorem parseImport_eq (isRsa : Role→Bool) (data : Bytes) : parseImport isRsa data=(ehlParseOne data).bind fun x=>
    if x.1≠0x4D then none
    else (ehlParseOne x.2.1).bind fun y=>(roleForKeyRef (UInt8.ofNat y.1)).bind fun r=>
      (collectImport y.2.2.length y.2.2 (none,none)).bind (takeImport isRsa r):=by
  unfold parseImport
  cases ehlParseOne data with
  | none=>rfl
  | some x=>
    obtain ⟨tag,outer,trailing⟩:=x
    dsimp only [Option.bind_some]
    split_ifs
    · rfl
    cases ehlParseOne outer with
    | none=>rfl
    | some y=>
      obtain ⟨crt,value,inner⟩:=y
      dsimp only [Option.bind_some]
      cases roleForKeyRef (UInt8.ofNat crt) with
      | none=>rfl
      | some r=>
        dsimp only [Option.bind_some]
        cases collectImport inner.length inner (none,none) with
        | none=>rfl
        | some found=>
          obtain ⟨tmpl,concat⟩:=found
          unfold takeImport
          cases concat with
          | none=>rfl
          | some concat=>
            dsimp only [Option.bind_some,Option.getD_some]
            split_ifs
            · rfl
            · cases tmpl with
              | none=>rfl
              | some tmpl=>
                dsimp only [Option.bind_some]
                cases parseRsaImport tmpl.length tmpl concat (none,none,none) <;> rfl
            · rfl
            · rfl

theorem conveys_of_parseImport {isRsa : Role→Bool} {data : Bytes} {imp : Import} (h : parseImport isRsa data=some imp) :
    Conveys isRsa imp data:=by
  unfold parseImport at h
  split at h
  · cases h
  rename_i tag outer trailing hlist
  split_ifs at h with htag
  rw [ne_eq,not_not] at htag
  subst htag
  split at h
  · cases h
  rename_i crt value inner hhead
  split at h
  · cases h
  rename_i r hr
  split at h
  · cases h
  rename_i tmpl concat hcollect
  obtain ⟨list,hlist,hdata⟩:=ehlParseOne_iff.mp hlist
  obtain ⟨head,hhead,houter⟩:=ehlParseOne_iff.mp hhead
  obtain ⟨es,hes,hfound⟩:=(collectImport_iff le_rfl).mp hcollect
  have hframed : Framed r es data:=⟨outer,list,trailing,crt,value,head,inner,hlist,hdata,hhead,houter,hr,hes⟩
  rw [Prod.mk.injEq] at hfound
  have hvalues : concat.getD []≠[]→last 0x5F48 es=some (concat.getD []):=by
    intro hne
    cases hconcat : concat with
    | none=>exact absurd (by rw [hconcat]; rfl) hne
    | some values=>exact hfound.2.symm.trans hconcat
  dsimp only at h
  split_ifs at h with hempty hrole hshort
  · split at h
    · cases h
    rename_i tmpl'
    split at h
    · cases h
    rename_i e p q hrsa
    cases h
    obtain ⟨ps,hps,htotal,hnumbers⟩:=(parseRsaImport_iff le_rfl).mp hrsa
    simp only [numbersFrom,Prod.mk.injEq] at hnumbers
    exact .rsa hframed hrole hfound.1.symm (hvalues hempty) hempty hps htotal hnumbers.1 hnumbers.2.1 hnumbers.2.2
  · cases h
    exact .ecc hframed (Bool.eq_false_iff.mpr hrole) (hvalues hempty) (by omega)

theorem Conveys.parseImport {isRsa : Role→Bool} {data : Bytes} {imp : Import} (h : Conveys isRsa imp data) :
    parseImport isRsa data=some imp:=by
  have hread : ∀ {r : Role} {es : List (ℕ × Bytes)}, Framed r es data→OpenPgp.parseImport isRsa data =
      (let concat:=(last 0x5F48 es).getD []
        if concat=[] then none
        else if isRsa r then
          match last 0x7F48 es with
          | none=>none
          | some tmpl=>
            match parseRsaImport tmpl.length tmpl concat (none,none,none) with
            | none=>none
            | some (e,p,q)=>some (.rsa r e p q)
        else if concat.length < 32 then none
        else some (.ecc r (concat.take 32))):=by
    rintro r es ⟨outer,list,trailing,crt,value,head,inner,hlist,rfl,hhead,rfl,hr,hes⟩
    have hcollect : collectImport inner.length inner (none,none)=some (last 0x7F48 es,last 0x5F48 es):=
      (collectImport_iff le_rfl).mpr ⟨es,hes,rfl⟩
    unfold OpenPgp.parseImport
    rw [ehlParseOne_element hlist]
    dsimp only
    rw [if_neg (by simp),ehlParseOne_element hhead]
    dsimp only
    rw [hr]
    dsimp only
    rw [hcollect]
  cases h with
  | ecc hframed hrole hvalues hlong=>
    rename_i r es values
    have hne : values≠[]:=List.ne_nil_of_length_pos (by omega)
    rw [hread hframed,hvalues]
    dsimp only [Option.getD_some]
    rw [if_neg hne,hrole,if_neg Bool.false_ne_true,if_neg (by omega)]
  | rsa hframed hrole htmpl hvalues hne hps htotal he hp hq=>
    rename_i r es tmpl values e p q ps
    have hrsa : parseRsaImport tmpl.length tmpl values (none,none,none)=some (e,p,q):=
      (parseRsaImport_iff le_rfl).mpr ⟨ps,hps,htotal,Prod.ext he (Prod.ext hp hq)⟩
    rw [hread hframed,hvalues,htmpl]
    dsimp only [Option.getD_some]
    rw [if_neg hne,hrole,if_pos rfl,hrsa]

section Command

variable (dev : Device) (cr : GpgCrypto)

def storeEcc (r : Role) (scalar : Bytes) : CardM Reply:=do
  let curve ← appGets fun a=>a.curveOf r
  let ok ← (if r=.dec then gpgStorageSaveDecPrivkey dev cr (fit 32 scalar) none else eccImport r scalar curve)
  if ok then
    updateGenerationTimestamp cr r.keyRef
    apduSw swOk
  else apduSw swUnknown

def storeRsa (r : Role) (e p q : Bytes) : CardM Reply:=do
  let nBits ← appGets fun a=>(a.rsa r).nBits
  match gpgRsaBlobBuild cr nBits e p q with
  | none=>apduSw swWrongData
  | some blob=>
    if ← gpgStorageSaveRsaKey dev cr r blob none then
      updateGenerationTimestamp cr r.keyRef
      apduSw swOk
    else apduSw swUnknown

def storeImport : Import → CardM Reply
  | .ecc r scalar=>storeEcc dev cr r scalar
  | .rsa r e p q=>storeRsa dev cr r e p q

def Card.isRsa (card : Card) (r : Role) : Bool:=(card.app.rsa r).isRsa

variable {dev cr} {c : Cmd} {card : Card}

variable (dev cr) in
def stored (imp : Option Import) : CardM Reply:=
  match imp with
  | none=>apduSw swWrongData
  | some imp=>storeImport dev cr imp

theorem storing_eq {r : Role} (tmpl : Option Bytes) (concat : Bytes) :
    (if concat=[] then apduSw swWrongData
      else do
        if (← appGets fun a=>(a.rsa r).isRsa) then importRsa dev cr r tmpl concat
        else importEcc dev cr r concat : CardM Reply) card =
      stored dev cr (if concat=[] then none
        else if card.isRsa r then
          match tmpl with
          | none=>none
          | some tmpl=>
            match parseRsaImport tmpl.length tmpl concat (none,none,none) with
            | none=>none
            | some (e,p,q)=>some (.rsa r e p q)
        else if concat.length < 32 then none
        else some (.ecc r (concat.take 32))) card:=by
  by_cases hconcat : concat=[]
  · rw [if_pos hconcat,if_pos hconcat]
    rfl
  rw [if_neg hconcat,if_neg hconcat,appGets_bind]
  cases hrsa : card.isRsa r with
  | true=>
    have hrsa' : (card.app.rsa r).isRsa=true:=hrsa
    simp only [hrsa',if_true]
    cases tmpl with
    | none=>rfl
    | some tmpl=>
      unfold importRsa
      rw [appGets_bind]
      simp only
      cases parseRsaImport tmpl.length tmpl concat (none,none,none) with
      | none=>rfl
      | some x=>rfl
  | false=>
    have hrsa' : (card.app.rsa r).isRsa=false:=hrsa
    simp only [hrsa',Bool.false_eq_true,if_false]
    unfold importEcc
    by_cases hshort : concat.length < 32
    · rw [if_pos hshort,if_pos hshort]
      rfl
    · rw [if_neg hshort,if_neg hshort]
      rfl

theorem cmdPutDataOdd_eq : cmdPutDataOdd dev cr c card =
    if !card.app.pw3Verified then (.ok {sw:=swSecurityNotSatisfied},card)
    else if c.p1≠0x3F ∨ c.p2≠0xFF then (.ok {sw:=swIncorrectP1P2},card)
    else if c.data=[] then (.ok {sw:=swWrongLength},card)
    else stored dev cr (parseImport card.isRsa c.data) card:=by
  unfold cmdPutDataOdd
  rw [appGets_bind]
  split_ifs with hpw3 hparams hempty
  · rfl
  · rfl
  · rfl
  unfold parseImport
  cases ehlParseOne c.data with
  | none=>rfl
  | some x=>
    obtain ⟨tag,outer,trailing⟩:=x
    simp only
    by_cases htag : tag≠0x4D
    · rw [if_pos htag,if_pos htag]
      rfl
    rw [if_neg htag,if_neg htag]
    cases ehlParseOne outer with
    | none=>rfl
    | some x=>
      obtain ⟨crt,value,inner⟩:=x
      simp only
      cases roleForKeyRef (UInt8.ofNat crt) with
      | none=>rfl
      | some r=>
        simp only
        cases collectImport inner.length inner (none,none) with
        | none=>rfl
        | some x=>exact storing_eq x.1 (x.2.getD [])

end Command

/-- What may come into the slots of a chip, and which may be left empty. -/
structure Changes where
  ecc : ℕ → EccKey→Prop:=fun _ _=>False
  rmem : ℕ→Bytes→Prop:=fun _ _=>False
  erased : ℕ→Prop:=fun _=>False

/-- The chip holds what it held, or what may come into its slots. -/
structure Changes.Within (ch : Changes) (before after : Chip Bytes) : Prop where
  ecc : ∀ slot, after.ecc slot=before.ecc slot ∨ ∃ key, ch.ecc slot key ∧ after.ecc slot=some key
  rmem : ∀ slot, after.rmem slot=before.rmem slot ∨ ch.erased slot ∧ after.rmem slot=none ∨
    ∃ data, ch.rmem slot data ∧ after.rmem slot=some data

section Within

variable {ch : Changes} {before chip : Chip Bytes} {slot : ℕ}

theorem Changes.Within.refl (ch : Changes) (chip : Chip Bytes) : ch.Within chip chip:=
  ⟨fun _=>.inl rfl,fun _=>.inl rfl⟩

theorem Changes.Within.eccGenerate {key : EccKey} (hkey : ch.ecc slot key) (h : ch.Within before chip) :
    ch.Within before (Chip.eccGenerate slot key chip).2:=by
  unfold Chip.eccGenerate
  split_ifs
  · exact h
  · split
    · exact h
    · refine ⟨fun slot'=>?_,h.rmem⟩
      by_cases hslot : slot'=slot
      · subst hslot
        exact .inr ⟨key,hkey,Function.update_self ..⟩
      · have hother : Function.update chip.ecc slot (some key) slot'=chip.ecc slot':=Function.update_of_ne hslot ..
        simpa only [hother] using h.ecc slot'

theorem Changes.Within.rmemErase (hslot : ch.erased slot) (h : ch.Within before chip) :
    ch.Within before (Chip.rmemErase slot chip).2:=by
  unfold Chip.rmemErase
  split_ifs
  · exact h
  · refine ⟨h.ecc,fun slot'=>?_⟩
    by_cases heq : slot'=slot
    · subst heq
      exact .inr (.inl ⟨hslot,Function.update_self ..⟩)
    · have hother : Function.update chip.rmem slot none slot'=chip.rmem slot':=Function.update_of_ne heq ..
      simpa only [hother] using h.rmem slot'

theorem Changes.Within.rmemWrite {data : Bytes} (hdata : ch.rmem slot data) (h : ch.Within before chip) :
    ch.Within before (Chip.rmemWrite slot data chip).2:=by
  unfold Chip.rmemWrite
  split_ifs
  · exact h
  · split
    · exact h
    · refine ⟨h.ecc,fun slot'=>?_⟩
      by_cases heq : slot'=slot
      · subst heq
        exact .inr (.inr ⟨data,hdata,Function.update_self ..⟩)
      · have hother : Function.update chip.rmem slot (some data) slot'=chip.rmem slot':=Function.update_of_ne heq ..
        simpa only [hother] using h.rmem slot'

variable {dev : Device} {cr : GpgCrypto}

theorem keeps_within_saveSlot {magic payload : Bytes} (hslot : ch.erased slot)
    (hdata : ∀ key nonce, ch.rmem slot (sealedRecord cr key slot magic nonce payload)) (pin : Option Bytes) :
    Keeps (fun c=>ch.Within before c.badge.chip) (saveSlotEncrypted dev cr slot magic payload pin):=
  keeps_view_saveSlot (P:=fun v=>ch.Within before v.1) (fun _ _ h=>h.rmemErase hslot)
    (fun _ _ _ _ h=>h.rmemWrite (hdata _ _)) pin

theorem keeps_within_saveRsa {r : Role} {blob : Bytes} (hfirst : ch.erased (rsaSlot0 r)) (hsecond : ch.erased (rsaSlot0 r+1))
    (hdata : ∀ key nonce, ch.rmem (rsaSlot0 r) ((rsaRecord cr key r nonce blob).take rsaSlotCap) ∧
      ch.rmem (rsaSlot0 r+1) ((rsaRecord cr key r nonce blob).drop rsaSlotCap)) (pin : Option Bytes) :
    Keeps (fun c=>ch.Within before c.badge.chip) (gpgStorageSaveRsaKey dev cr r blob pin):=
  keeps_view_saveRsa (P:=fun v=>ch.Within before v.1) (fun _ _ h=>h.rmemErase hfirst)
    (fun _ _ h=>h.rmemErase hsecond)
    (fun _ _ _ _ h=>⟨h.rmemWrite (hdata _ _).1,h.rmemWrite (hdata _ _).2⟩) pin

end Within

section Stored

variable (dev : Device) (cr : GpgCrypto) (card : Card)

def Import.changes (imp : Import) : Changes:=
  match imp with
  | .ecc .dec scalar=>
    { rmem:=fun slot data=>slot=rmemSlotDecKey ∧
        ∃ key nonce, data=sealedRecord cr key slot decKeyMagic nonce (fit 32 scalar).toList
      erased:=fun slot=>slot=rmemSlotDecKey }
  | .ecc r scalar=>{ecc:=fun slot key=>slot=r.slot ∧ key=⟨card.app.curveOf r,ofBe scalar⟩}
  | .rsa r e p q=>
    { rmem:=fun slot data=>∃ blob key nonce, gpgRsaBlobBuild cr (card.app.rsa r).nBits e p q=some blob ∧
        (slot=rsaSlot0 r ∧ data=(rsaRecord cr key r nonce blob).take rsaSlotCap ∨
          slot=rsaSlot0 r+1 ∧ data=(rsaRecord cr key r nonce blob).drop rsaSlotCap)
      erased:=fun slot=>slot=rsaSlot0 r ∨ slot=rsaSlot0 r+1 }

theorem keeps_chip_timestamped {P : Chip Bytes→Prop} {saved : CardM Bool} (hsaved : Keeps (fun c=>P c.badge.chip) saved)
    (keyRef : UInt8) : Keeps (fun c=>P c.badge.chip) (do
      if ← saved then
        updateGenerationTimestamp cr keyRef
        apduSw swOk
      else apduSw swUnknown):=by
  apply Keeps.bind hsaved fun ok=>?_
  have hfixes : Fixes (fun c : Card=>c.badge.chip) (updateGenerationTimestamp cr keyRef):=
    fixes_updateGenerationTimestamp keyRef
  have hstamp:=keeps_of_fixes hfixes P
  exact Keeps.ite (fun _=>Keeps.bind hstamp fun _=>Keeps.pure _) fun _=>Keeps.pure _

theorem storeImport_within (imp : Import) :
    (imp.changes cr card).Within card.badge.chip (storeImport dev cr imp card).2.badge.chip:=by
  have hrefl:=Changes.Within.refl (imp.changes cr card) card.badge.chip
  cases imp with
  | ecc r scalar=>
    change (Import.changes cr card (.ecc r scalar)).Within _ (storeEcc dev cr r scalar card).2.badge.chip
    unfold storeEcc
    rw [appGets_bind]
    cases r with
    | dec=>
      have hsaved : Keeps (fun c=>(Import.changes cr card (.ecc .dec scalar)).Within card.badge.chip c.badge.chip)
          (gpgStorageSaveDecPrivkey dev cr (fit 32 scalar) none):=by
        apply keeps_within_saveSlot
        · exact (rfl : rmemSlotDecKey=rmemSlotDecKey)
        · exact fun key nonce=>⟨rfl,key,nonce,rfl⟩
      exact keeps_iff.mp (keeps_chip_timestamped cr hsaved Role.dec.keyRef) card hrefl
    | sig=>
      have hsaved : Keeps (fun c=>(Import.changes cr card (.ecc .sig scalar)).Within card.badge.chip c.badge.chip)
          (eccImport .sig scalar (card.app.curveOf .sig)):=
        keeps_view_succeeds (P:=fun v=>(Import.changes cr card _).Within card.badge.chip v.1)
          fun _ _ h=>h.eccGenerate ⟨rfl,rfl⟩
      exact keeps_iff.mp (keeps_chip_timestamped cr hsaved Role.sig.keyRef) card hrefl
    | aut=>
      have hsaved : Keeps (fun c=>(Import.changes cr card (.ecc .aut scalar)).Within card.badge.chip c.badge.chip)
          (eccImport .aut scalar (card.app.curveOf .aut)):=
        keeps_view_succeeds (P:=fun v=>(Import.changes cr card _).Within card.badge.chip v.1)
          fun _ _ h=>h.eccGenerate ⟨rfl,rfl⟩
      exact keeps_iff.mp (keeps_chip_timestamped cr hsaved Role.aut.keyRef) card hrefl
  | rsa r e p q=>
    change (Import.changes cr card (.rsa r e p q)).Within _ (storeRsa dev cr r e p q card).2.badge.chip
    unfold storeRsa
    rw [appGets_bind]
    cases hblob : gpgRsaBlobBuild cr (card.app.rsa r).nBits e p q with
    | none=>exact hrefl
    | some blob=>
      have hsaved : Keeps (fun c=>(Import.changes cr card (.rsa r e p q)).Within card.badge.chip c.badge.chip)
          (gpgStorageSaveRsaKey dev cr r blob none):=by
        apply keeps_within_saveRsa
        · exact Or.inl rfl
        · exact Or.inr rfl
        · exact fun key nonce=>
            ⟨⟨blob,key,nonce,hblob,.inl ⟨rfl,rfl⟩⟩,blob,key,nonce,hblob,.inr ⟨rfl,rfl⟩⟩
      exact keeps_iff.mp (keeps_chip_timestamped cr hsaved r.keyRef) card hrefl

/-- Where the command changes the chip, its data says what, and nothing else comes into the chip. -/
theorem cmdPutDataOdd_within (c : Cmd) : (cmdPutDataOdd dev cr c card).2.badge.chip=card.badge.chip ∨
    ∃ imp, Conveys card.isRsa imp c.data ∧
      (imp.changes cr card).Within card.badge.chip (cmdPutDataOdd dev cr c card).2.badge.chip:=by
  rw [cmdPutDataOdd_eq]
  split_ifs
  · exact .inl rfl
  · exact .inl rfl
  · exact .inl rfl
  cases himp : parseImport card.isRsa c.data with
  | none=>exact .inl rfl
  | some imp=>exact .inr ⟨imp,conveys_of_parseImport himp,storeImport_within dev cr card imp⟩

end Stored

end CdcBadge.OpenPgp
