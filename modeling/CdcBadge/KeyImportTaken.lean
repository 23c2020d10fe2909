import CdcBadge.KeyImportReads
import CdcBadge.KeyStores

/-!
# Header lists that are taken

A list of one reference, one template and one value element, and what a card whose calls are
done makes of it: the key is stored and the command acknowledged.
-/

namespace CdcBadge.OpenPgp

open Handler
open Tlv

/-- The payload `4D{CRT of the role, 7F48 template, 5F48 values}`, with nothing behind it and a template that cuts all
of the values. -/
inductive Listed (r : Role) (ps : List (UInt8 × ℕ)) (values : Bytes) : Bytes→Prop
  | mk {head tmpl tmplField valuesField outer data crt : Bytes} (hcrt : Element r.keyRef.toNat crt head)
    (hps : Template ps tmpl) (htmpl : Element 0x7F48 tmpl tmplField) (hvalues : Element 0x5F48 values valuesField)
    (houter : outer=head++(tmplField++valuesField)) (htotal : total ps=values.length)
    (hdata : Element 0x4D outer data) : Listed r ps values data

section Lists

variable {r : Role} {ps : List (UInt8 × ℕ)} {values data : Bytes}

theorem roleForKeyRef_keyRef (r : Role) : roleForKeyRef (UInt8.ofNat r.keyRef.toNat)=some r:=by
  cases r <;> rfl

theorem Listed.framed (h : Listed r ps values data) :
    ∃ tmpl, Template ps tmpl ∧ total ps=values.length ∧ Framed r [(0x7F48,tmpl),(0x5F48,values)] data:=by
  obtain ⟨hcrt,hps,htmpl,hvalues,rfl,htotal,hdata⟩:=h
  rename_i head tmpl tmplField valuesField crt
  have hinner : Elements [(0x7F48,tmpl),(0x5F48,values)] (tmplField++valuesField):=by
    have htail : Elements [(0x5F48,values)] (valuesField++[]):=.cons hvalues .nil
    rw [List.append_nil] at htail
    exact .cons htmpl htail
  exact ⟨tmpl,hps,htotal,_,data,[],_,crt,head,_,hdata,(List.append_nil _).symm,hcrt,rfl,
    roleForKeyRef_keyRef r,hinner⟩

theorem Listed.ecc {isRsa : Role→Bool} (h : Listed r ((0x92,32)::ps) values data) (hrole : isRsa r=false) :
    Conveys isRsa (.ecc r (values.take 32)) data:=by
  obtain ⟨tmpl,-,htotal,hframed⟩:=h.framed
  have hlong : 32+total ps=values.length:=htotal
  exact .ecc hframed hrole rfl (by omega)

theorem Listed.rsa {isRsa : Role→Bool} {e p q : Bytes} (h : Listed r ps values data) (hrole : isRsa r=true)
    (he : last 0x91 (parts ps values)=some e) (hp : last 0x92 (parts ps values)=some p)
    (hq : last 0x93 (parts ps values)=some q) (hne : values≠[]) : Conveys isRsa (.rsa r e p q) data:=by
  obtain ⟨tmpl,hps,htotal,hframed⟩:=h.framed
  exact .rsa hframed hrole rfl rfl hne hps htotal.le he hp hq

end Lists

section Stored

variable (dev : Device) (cr : GpgCrypto)

/-- The chip can take the key: the slot is empty, and the numbers make a key of the size that is set for the role. -/
def Import.Fits (card : Card) : Import→Prop
  | .ecc .dec _=>True
  | .ecc r _=>card.badge.chip.ecc r.slot=none
  | .rsa r e p q=>gpgRsaBlobBuild cr (card.app.rsa r).nBits e p q≠none

def Import.HeldBy (card : Card) (imp : Import) (chip : Chip Bytes) : Prop:=
  match imp with
  | .ecc .dec scalar=>∃ nonce : ByteArr nonceSize, chip.rmem rmemSlotDecKey =
      some (sealedRecord cr (storageKey cr dev.chipId rmemSlotDecKey none) rmemSlotDecKey decKeyMagic nonce.toList
        (fit 32 scalar).toList)
  | .ecc r scalar=>chip.ecc r.slot=some ⟨card.app.curveOf r,ofBe scalar⟩
  | .rsa r e p q=>∃ (blob : Bytes) (nonce : ByteArr nonceSize),
      gpgRsaBlobBuild cr (card.app.rsa r).nBits e p q=some blob ∧
        RsaHeld r (rsaRecord cr (storageKey cr dev.chipId (rsaSlot0 r) none) r nonce.toList blob) chip

theorem calm_timestamped {P : Card→Prop} {Q : Chip Bytes→Prop} {saved : CardM Bool}
    (hsaved : Triple P saved (fun ok c=>ok=true ∧ c.Calm ∧ Q c.badge.chip) fun _ _=>False) (keyRef : UInt8) :
    Triple P (do
      if ← saved then
        updateGenerationTimestamp cr keyRef
        apduSw swOk
      else apduSw swUnknown) (fun reply c=>reply={sw:=swOk} ∧ Q c.badge.chip) fun _ _=>False:=by
  apply Triple.bind hsaved fun ok=>?_
  apply Triple.pre
  rintro rfl
  rw [if_pos rfl]
  have hfixes : Fixes (fun c : Card=>c.badge.chip) (updateGenerationTimestamp cr keyRef):=
    fixes_updateGenerationTimestamp keyRef
  have hkeeps : Keeps (fun c=>Q c.badge.chip) (updateGenerationTimestamp cr keyRef):=keeps_of_fixes hfixes Q
  have hstamp:=Triple.and (calm_updateGenerationTimestamp cr keyRef) hkeeps
  apply Triple.bind (Triple.conseq hstamp (fun _ h=>h) (fun _ _ h=>h.2) fun _ _ h=>h.1) fun _=>?_
  exact Triple.pure fun c h=>⟨rfl,h⟩

theorem eccImport_done {r : Role} (scalar : Bytes) (curve : EccCurve) :
    Triple (fun c=>c.Calm ∧ c.badge.chip.ecc r.slot=none) (eccImport r scalar curve)
      (fun ok c=>ok=true ∧ c.Calm ∧ c.badge.chip.ecc r.slot=some ⟨curve,ofBe scalar⟩) fun _ _=>False:=by
  have hslot : r.slot < Chip.eccSlotCount:=by cases r <;> decide
  apply Triple.bind (calm_told _ fun chip=>chip.ecc r.slot=none) fun reply=>?_
  rintro c ⟨hcalm,chip,hempty,hcall⟩
  have hgenerate : Chip.eccGenerate r.slot ⟨curve,ofBe scalar⟩ chip =
      (.ok (),{chip with ecc:=Function.update chip.ecc r.slot (some ⟨curve,ofBe scalar⟩)}):=by
    simp [Chip.eccGenerate,Nat.not_le.mpr hslot,hempty]
  rw [hgenerate] at hcall
  obtain rfl : .ok ()=reply:=congrArg Prod.fst hcall
  have hafter:=congrArg Prod.snd hcall
  dsimp only at hafter
  refine ⟨rfl,hcalm,?_⟩
  rw [← hafter]
  exact Function.update_self ..

theorem length_toBe (len n : ℕ) : (toBe len n).length=len:=by
  induction len with
  | zero=>rfl
  | succ len ih=>rw [toBe,List.length_cons,ih]

theorem length_of_mpiBytes {len n : ℕ} {bs : Bytes} (h : mpiBytes len n=some bs) : bs.length=len:=by
  unfold mpiBytes at h
  split_ifs at h
  cases h
  exact length_toBe len n

theorem rsaSerialize_length {k : RsaKey} {blob : Bytes} (h : rsaSerialize k=some blob) :
    blob≠[] ∧ blob.length ≤ rsaBlobMax:=by
  unfold rsaSerialize at h
  dsimp only at h
  split_ifs at h with hsize
  obtain ⟨e,he,h⟩:=Option.bind_eq_some_iff.mp h
  obtain ⟨p,hp,h⟩:=Option.bind_eq_some_iff.mp h
  obtain ⟨q,hq,h⟩:=Option.bind_eq_some_iff.mp h
  cases h
  have he':=length_of_mpiBytes he
  have hp':=length_of_mpiBytes hp
  have hq':=length_of_mpiBytes hq
  constructor
  · simp [be16Bytes]
  · simp only [be16Bytes,List.length_append,List.length_cons,List.length_nil,he',hp',hq']
    omega

theorem gpgRsaBlobBuild_length {nBits : UInt16} {e p q blob : Bytes} (h : gpgRsaBlobBuild cr nBits e p q=some blob) :
    blob≠[] ∧ blob.length ≤ rsaBlobMax:=by
  unfold gpgRsaBlobBuild at h
  dsimp only at h
  split_ifs at h
  exact rsaSerialize_length h

theorem storeImport_done {imp : Import} {card : Card} (hready : card.Ready) (hfits : imp.Fits cr card) :
    Triple (fun c=>c=card) (storeImport dev cr imp)
      (fun reply c=>reply={sw:=swOk} ∧ imp.HeldBy dev cr card c.badge.chip) fun _ _=>False:=by
  have heq : ∀ c, c=card → c.Ready:=by
    rintro c rfl
    exact hready
  cases imp with
  | ecc r scalar=>
    have hcurve : Triple (fun c=>c=card) (appGets fun a=>a.curveOf r)
        (fun curve c=>curve=card.app.curveOf r ∧ c=card) fun _ _=>False:=
      Triple.gets fun c hc=>⟨by rw [hc],hc⟩
    apply Triple.bind hcurve fun curve=>?_
    apply Triple.pre
    rintro rfl
    have himport : card.badge.chip.ecc r.slot=none →
        Triple (fun c=>c=card) (eccImport r scalar (card.app.curveOf r)) (fun ok c=>ok=true ∧ c.Calm ∧
          c.badge.chip.ecc r.slot=some ⟨card.app.curveOf r,ofBe scalar⟩) fun _ _=>False:=by
      intro hempty
      apply Triple.conseq (eccImport_done scalar _) _ (fun _ _ h=>h) fun _ _ h=>h
      rintro c rfl
      exact ⟨hready.toCalm,hempty⟩
    cases r with
    | dec=>
      have hsaved:=saveSlotEncrypted_done dev cr (show rmemSlotDecKey < Chip.rmemSlotCount by decide) decKeyMagic
        (fit 32 scalar).toList none
      exact calm_timestamped cr (Triple.conseq hsaved heq (fun _ _ h=>h) fun _ _ h=>h) _
    | sig=>exact calm_timestamped cr (himport hfits) _
    | aut=>exact calm_timestamped cr (himport hfits) _
  | rsa r e p q=>
    have hbits : Triple (fun c=>c=card) (appGets fun a=>(a.rsa r).nBits)
        (fun bits c=>bits=(card.app.rsa r).nBits ∧ c=card) fun _ _=>False:=
      Triple.gets fun c hc=>⟨by rw [hc],hc⟩
    apply Triple.bind hbits fun bits=>?_
    apply Triple.pre
    rintro rfl
    obtain ⟨blob,hblob⟩:=Option.ne_none_iff_exists'.mp hfits
    obtain ⟨hne,hmax⟩:=gpgRsaBlobBuild_length cr hblob
    rw [hblob]
    have hsaved:=gpgStorageSaveRsaKey_done dev cr (r:=r) hne hmax none
    apply calm_timestamped (Q:=(Import.rsa r e p q).HeldBy dev cr card) cr _ _
    apply Triple.conseq hsaved heq _ fun _ _ h=>h
    rintro ok c ⟨hok,hcalm,nonce,hheld⟩
    exact ⟨hok,hcalm,blob,nonce,hblob,hheld⟩

/-- The lists that a role takes for a key: with the scalar first, or with the three numbers. -/
inductive Lists (isRsa : Role→Bool) : Import→Bytes→Prop
  | ecc {r : Role} {ps : List (UInt8 × ℕ)} {values data : Bytes} (hrole : isRsa r=false)
    (h : Listed r ((0x92,32)::ps) values data) : Lists isRsa (.ecc r (values.take 32)) data
  | rsa {r : Role} {ps : List (UInt8 × ℕ)} {values data e p q : Bytes} (hrole : isRsa r=true) (hne : values≠[])
    (h : Listed r ps values data) (he : last 0x91 (parts ps values)=some e) (hp : last 0x92 (parts ps values)=some p)
    (hq : last 0x93 (parts ps values)=some q) : Lists isRsa (.rsa r e p q) data

theorem Lists.conveys {isRsa : Role→Bool} {imp : Import} {data : Bytes} (h : Lists isRsa imp data) : Conveys isRsa imp data:=by
  cases h with
  | ecc hrole h=>exact h.ecc hrole
  | rsa hrole hne h he hp hq=>exact h.rsa hrole he hp hq hne

/-- The security status and the parameters that the command asks for. -/
def Importing (c : Cmd) (card : Card) : Prop:=card.app.pw3Verified=true ∧ c.p1=0x3F ∧ c.p2=0xFF ∧ c.data≠[]

theorem cmdPutDataOdd_importing {c : Cmd} {card : Card} (h : Importing c card) :
    cmdPutDataOdd dev cr c card=stored dev cr (parseImport card.isRsa c.data) card:=by
  obtain ⟨hpw3,hp1,hp2,hdata⟩:=h
  rw [cmdPutDataOdd_eq,if_neg (by simp [hpw3]),if_neg (by simp [hp1,hp2]),if_neg hdata]

/-- What a payload says is stored, where the chip can take the key and its calls are done. -/
theorem cmdPutDataOdd_conveys {c : Cmd} {card : Card} {imp : Import} (himporting : Importing c card)
    (hready : card.Ready) (hconveys : Conveys card.isRsa imp c.data) (hfits : imp.Fits cr card) :
    ∃ card', cmdPutDataOdd dev cr c card=(.ok {sw:=swOk},card') ∧ imp.HeldBy dev cr card card'.badge.chip:=by
  rw [cmdPutDataOdd_importing dev cr himporting,hconveys.parseImport]
  have hdone:=storeImport_done dev cr hready hfits card rfl
  change ∃ card', storeImport dev cr imp card=(.ok {sw:=swOk},card') ∧ imp.HeldBy dev cr card card'.badge.chip
  cases hrun : storeImport dev cr imp card with
  | mk reply card'=>
    rw [hrun] at hdone
    cases reply with
    | error e=>exact hdone.elim
    | ok reply=>
      obtain ⟨rfl,hheld⟩:=hdone
      exact ⟨card',rfl,hheld⟩

/-- A key comes into a slot only from a payload that says so, and into the slots of its role only. The payload is read
by addresses inside it. A list that a role takes is stored, where the chip can take the key and its calls are done. -/
theorem key_import (c : Cmd) (card : Card) :
    ((cmdPutDataOdd dev cr c card).2.badge.chip=card.badge.chip ∨
      ∃ imp, Conveys card.isRsa imp c.data ∧
        (imp.changes cr card).Within card.badge.chip (cmdPutDataOdd dev cr c card).2.badge.chip) ∧
    (Importing c card→∃ imp, importAt card.isRsa c.data=Scan.ofOption imp ∧
      cmdPutDataOdd dev cr c card=stored dev cr imp card) ∧
    ∀ imp, Importing c card → card.Ready → Lists card.isRsa imp c.data→imp.Fits cr card →
      ∃ card', cmdPutDataOdd dev cr c card=(.ok {sw:=swOk},card') ∧
        imp.HeldBy dev cr card card'.badge.chip:=by
  refine ⟨cmdPutDataOdd_within dev cr card c,fun himporting=>?_,fun imp himporting hready hlists hfits=>?_⟩
  · exact ⟨_,importAt_eq card.isRsa c.data,cmdPutDataOdd_importing dev cr himporting⟩
  · exact cmdPutDataOdd_conveys dev cr himporting hready hlists.conveys hfits

end Stored

def shortElement (tag value : Bytes) : Bytes:=tag++[UInt8.ofNat value.length]++value

theorem element_shortElement {tag : ℕ} {tb value : Bytes} (htag : TagBytes tag tb) (hshort : value.length < 0x80) :
    Element tag value (shortElement tb value):=by
  have hlength : (UInt8.ofNat value.length).toNat=value.length:=by
    rw [UInt8.toNat_ofNat']
    omega
  have hlb:=LengthBytes.short (UInt8.ofNat value.length) (UInt8.lt_iff_toNat_lt.mpr (by rw [hlength]; exact hshort))
  rw [hlength] at hlb
  exact .mk htag hlb

def shortList (r : Role) (tmpl values : Bytes) : Bytes:=
  shortElement [0x4D] (shortElement [r.keyRef] [] ++
    (shortElement [0x7F,0x48] tmpl++shortElement [0x5F,0x48] values))

theorem listed_shortList (r : Role) {ps : List (UInt8 × ℕ)} {tmpl values : Bytes} (hps : Template ps tmpl)
    (htotal : total ps=values.length) (hshort : tmpl.length+values.length < 0x78) :
    Listed r ps values (shortList r tmpl values):=by
  have hcrt : TagBytes r.keyRef.toNat [r.keyRef]:=.short r.keyRef (by cases r <;> decide)
  refine .mk (element_shortElement hcrt (by simp)) hps (element_shortElement (.long 0x7F 0x48 (by decide)) (by omega))
    (element_shortElement (.long 0x5F 0x48 (by decide)) (by omega)) rfl htotal
    (element_shortElement (.short 0x4D (by decide)) ?_)
  simp only [shortElement,List.length_append,List.length_cons,List.length_nil]
  omega

def putList (list : Bytes) : Cmd:={ins:=0xDB,p1:=0x3F,p2:=0xFF,data:=list,le:=0}

def emptyCard : Card where
  badge:={chip:={ecc:=fun _=>none,rmem:=fun _=>none}}
  app:={pw3Verified:=true}

theorem emptyCard_ready : emptyCard.Ready:=⟨⟨rfl,rfl⟩,by decide⟩

/-- A list with the scalar alone is stored. -/
theorem key_import_scalar : ∃ card', cmdPutDataOdd Device.plain GpgCrypto.plain
    (putList (shortList .sig [0x92,0x20] (List.replicate 32 0x01))) emptyCard=(.ok {sw:=swOk},card') ∧
      card'.badge.chip.ecc Role.sig.slot=some ⟨.ed25519,ofBe (List.replicate 32 0x01)⟩:=by
  have hps : Template [(0x92,32)] [0x92,0x20]:=.cons (.short 0x20 (by decide)) .nil
  have hlisted : Listed .sig [(0x92,32)] (List.replicate 32 0x01) (shortList .sig [0x92,0x20] (List.replicate 32 0x01)):=
    listed_shortList .sig hps rfl (by decide)
  have hlists : Lists emptyCard.isRsa (.ecc .sig (List.replicate 32 0x01))
      (putList (shortList .sig [0x92,0x20] (List.replicate 32 0x01))).data:=.ecc rfl hlisted
  have himporting : Importing (putList (shortList .sig [0x92,0x20] (List.replicate 32 0x01))) emptyCard:=
    ⟨rfl,rfl,rfl,by decide⟩
  have hempty : emptyCard.badge.chip.ecc Role.sig.slot=none:=rfl
  exact (key_import Device.plain GpgCrypto.plain _ emptyCard).2.2 _ himporting emptyCard_ready hlists hempty

/-- Two parts of 32 bytes, the second of which is the scalar: the list is well formed, and the first part is stored. -/
theorem later_scalar_mistaken :
    let values:=List.replicate 32 0x01++List.replicate 32 0x02
    let list:=shortList .sig [0x99,0x20,0x92,0x20] values
    Listed .sig [(0x99,32),(0x92,32)] values list ∧
      last 0x92 (parts [(0x99,32),(0x92,32)] values)=some (List.replicate 32 0x02) ∧
      (∃ card', cmdPutDataOdd Device.plain GpgCrypto.plain (putList list) emptyCard=(.ok {sw:=swOk},card') ∧
        card'.badge.chip.ecc Role.sig.slot=some ⟨.ed25519,ofBe (List.replicate 32 0x01)⟩) ∧
      ofBe (List.replicate 32 0x01)≠ofBe (List.replicate 32 0x02):=by
  intro values list
  have hps : Template [(0x99,32),(0x92,32)] [0x99,0x20,0x92,0x20]:=
    .cons (.short 0x20 (by decide)) (.cons (.short 0x20 (by decide)) .nil)
  have hlisted : Listed .sig [(0x99,32),(0x92,32)] values list:=listed_shortList .sig hps (by decide) (by decide)
  obtain ⟨tmpl,-,-,hframed⟩:=hlisted.framed
  have hconveys : Conveys emptyCard.isRsa (.ecc .sig (List.replicate 32 0x01)) (putList list).data:=
    .ecc hframed rfl rfl (by decide)
  have hempty : emptyCard.badge.chip.ecc Role.sig.slot=none:=rfl
  have hrun:=cmdPutDataOdd_conveys Device.plain GpgCrypto.plain ⟨rfl,rfl,rfl,by decide⟩ emptyCard_ready hconveys hempty
  exact ⟨hlisted,by decide,hrun,by decide⟩

end CdcBadge.OpenPgp
