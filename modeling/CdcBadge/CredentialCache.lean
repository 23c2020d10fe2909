import CdcBadge.Credentials
import CdcBadge.Runs

/-!
# The cache and what a reboot makes of it

The store's operations change the chip and the cache in separate steps and ignore most
of the chip's errors. Where an erase or a rewrite that is reported to fail has nothing
left to do, the cache is what initialisation would rebuild from the chip.
-/

namespace CdcBadge.Fido2

open Handler Runs

def recordOf : Option RmemContent→Option StoredCred
  | some (.cred stored)=>some stored
  | _=>none

def rebuilt (rmem : ℕ→Option RmemContent) (slot : ℕ) : Option CachedCred:=
  if slotLogicalValid slot then (recordOf (rmem (rmemSlotForLogical slot))).map StoredCred.cached else none

def credTotal (creds : ℕ→Option CachedCred) : ℕ:=slots.countP fun i=>(creds i).isSome

def reboot (w : Badge) : Badge:=(fido2StorageInit (w.given {})).2

/-- The cache is what initialisation would rebuild. -/
structure Faithful (w : Badge) : Prop where
  creds : w.storage.creds=(reboot w).storage.creds
  credCount : w.storage.credCount=(reboot w).storage.credCount

/-- The cache has the data of the records. -/
structure Coherent (w : Badge) : Prop where
  creds : w.storage.creds=rebuilt w.chip.rmem
  credCount : w.storage.credCount=UInt8.ofNat (credTotal w.storage.creds)

theorem rmemSlotForLogical_lt {slot : ℕ} (h : slotLogicalValid slot=true) :
    rmemSlotForLogical slot < Chip.rmemSlotCount:=by
  rw [slotLogicalValid_iff] at h
  simp only [slotCount,rmemSlotForLogical,rmemStart,Chip.rmemSlotCount] at *
  omega

theorem rmemSlotForLogical_inj {slot other : ℕ} : rmemSlotForLogical slot=rmemSlotForLogical other ↔ slot=other:=by
  simp [rmemSlotForLogical]

variable {is : List ℕ}

section Rebuild

variable {w : Badge} {slot : ℕ}

theorem readRmemCredential_answered (hse : w.env.se=[]) (h : slotLogicalValid slot=true) :
    readRmemCredential slot w =
      (.ok (recordOf (w.chip.rmem (rmemSlotForLogical slot))),w):=by
  have hslot:=rmemSlotForLogical_lt h
  have hsame : w.given {w.env with se:=w.env.se.tail}=w:=by
    rw [hse,List.tail_nil,← hse]
    rfl
  have hcall : seCall (Chip.rmemRead (rmemSlotForLogical slot)) w =
      (.ok (Chip.rmemRead (rmemSlotForLogical slot) w.chip).1,w):=by
    unfold seCall
    rw [hse,List.headD_nil,Chip.perform,Chip.rmemRead_chip]
    dsimp only
    rw [← hse]
    exact congrArg (Prod.mk _) hsame
  rw [readRmemCredential,bind_of_ok hcall]
  cases hrmem : w.chip.rmem (rmemSlotForLogical slot) with
  | none=>
    rw [Chip.rmemRead_none hslot hrmem]
    rfl
  | some content=>
    rw [Chip.rmemRead_some hslot hrmem]
    cases content <;> rfl

def initSlot (slot : ℕ) : Ctap Unit:=do
  match ← readRmemCredential slot with
  | some stored=>
    updateCacheFromStored slot stored
    updateStorage fun s=>{s with credCount:=s.credCount+1}
  | none=>pure ()

def loadSlot (rmem : ℕ→Option RmemContent) (s : Storage) (slot : ℕ) : Storage:=
  match recordOf (rmem (rmemSlotForLogical slot)) with
  | some stored=>{s.setCred slot (some stored.cached) with credCount:=s.credCount+1}
  | none=>s

theorem init_round (hse : w.env.se=[]) (h : slotLogicalValid slot=true) :
    initSlot slot w=(.ok (),{w with storage:=loadSlot w.chip.rmem w.storage slot}):=by
  rw [initSlot,bind_of_ok (readRmemCredential_answered hse h),loadSlot]
  cases recordOf (w.chip.rmem (rmemSlotForLogical slot)) with
  | none=>rfl
  | some stored=>rfl

theorem init_loop (his : ∀ i∈is, slotLogicalValid i=true) (hse : w.env.se=[]) :
    (is.forM initSlot : Ctap Unit) w =
      (.ok (),{w with storage:=is.foldl (loadSlot w.chip.rmem) w.storage}):=by
  induction is generalizing w with
  | nil=>rfl
  | cons i is ih=>
    have hround:=init_round hse (his i List.mem_cons_self)
    have hrest:=fun j hj=>his j (List.mem_cons_of_mem i hj)
    exact (bind_of_ok hround).trans (ih (w:={w with storage:=loadSlot w.chip.rmem w.storage i}) hrest hse)

theorem foldl_loadSlot (rmem : ℕ→Option RmemContent) (his : is.Nodup) (s : Storage)
    (hs : ∀ i∈is, s.creds i=none) :
    (is.foldl (loadSlot rmem) s).creds=(fun i=>if i∈is then
        (recordOf (rmem (rmemSlotForLogical i))).map StoredCred.cached else s.creds i) ∧
      (is.foldl (loadSlot rmem) s).credCount=s.credCount +
        UInt8.ofNat (is.countP fun i=>(recordOf (rmem (rmemSlotForLogical i))).isSome):=by
  induction is generalizing s with
  | nil=>simp
  | cons i is ih=>
    obtain ⟨hi,his⟩:=List.nodup_cons.mp his
    have hcreds : ∀ j∈is, (loadSlot rmem s i).creds j=none:=by
      intro j hj
      have hne : j≠i:=by
        rintro rfl
        exact hi hj
      have hnone:=hs j (List.mem_cons_of_mem i hj)
      unfold loadSlot
      split
      · simpa [Storage.setCred,hne] using hnone
      · exact hnone
    obtain ⟨hrest,hcount⟩:=ih his (loadSlot rmem s i) hcreds
    rw [List.foldl_cons]
    constructor
    · rw [hrest]
      funext j
      have hnone:=hs i List.mem_cons_self
      by_cases hj : j=i
      · subst hj
        rw [if_neg hi,if_pos List.mem_cons_self,loadSlot]
        cases recordOf (rmem (rmemSlotForLogical j)) with
        | none=>exact hnone
        | some stored=>simp [Storage.setCred]
      · have hsame : (loadSlot rmem s i).creds j=s.creds j:=by
          unfold loadSlot
          split
          · simp [Storage.setCred,hj]
          · rfl
        simp only [List.mem_cons,hj,false_or,hsame]
    · rw [hcount,List.countP_cons,loadSlot]
      cases recordOf (rmem (rmemSlotForLogical i)) with
      | none=>simp
      | some stored=>
        simp only [Option.isSome_some,if_true,UInt8.ofNat_add]
        rw [UInt8.add_assoc,UInt8.add_comm 1]
        rfl

theorem slots_nodup : slots.Nodup:=List.nodup_range

theorem reboot_eq (w : Badge) : ∃ counter, reboot w =
    { w with
      storage:=slots.foldl (loadSlot w.chip.rmem) {authCounter:=counter,counterLoaded:=true}
      env:={} }:=by
  have hload : fido2StorageCounterLoad {w.given {} with storage:={}} =
      (.ok (),{w.given {} with storage:={authCounter:=w.nvs.counter.getD 0,counterLoaded:=true}}):=rfl
  refine ⟨w.nvs.counter.getD 0,?_⟩
  have hinit : fido2StorageInit (w.given {})=(.ok (),{ w with
      storage:=slots.foldl (loadSlot w.chip.rmem) {authCounter:=w.nvs.counter.getD 0,counterLoaded:=true}
      env:={} }):=by
    unfold fido2StorageInit
    rw [updateStorage,bind_modify,bind_of_ok hload]
    exact init_loop (fun _ hi=>mem_slots.mp hi) rfl
  rw [reboot,hinit]

theorem loaded_storage (rmem : ℕ→Option RmemContent) (counter : UInt32) :
    (slots.foldl (loadSlot rmem) {authCounter:=counter,counterLoaded:=true}).creds=rebuilt rmem ∧
      (slots.foldl (loadSlot rmem) {authCounter:=counter,counterLoaded:=true}).credCount =
        UInt8.ofNat (credTotal (rebuilt rmem)):=by
  obtain ⟨hcreds,hcount⟩:=foldl_loadSlot rmem slots_nodup
    {authCounter:=counter,counterLoaded:=true} fun _ _=>rfl
  have htotal : credTotal (rebuilt rmem)=slots.countP fun i=>(recordOf (rmem (rmemSlotForLogical i))).isSome:=by
    refine List.countP_congr fun i hi=>?_
    rw [rebuilt,if_pos (mem_slots.mp hi),Option.isSome_map]
  constructor
  · rw [hcreds]
    funext i
    simp only [rebuilt,mem_slots]
  · rw [hcount,htotal]
    exact UInt8.zero_add _

theorem reboot_storage (w : Badge) : (reboot w).storage.creds=rebuilt w.chip.rmem ∧
    (reboot w).storage.credCount=UInt8.ofNat (credTotal (rebuilt w.chip.rmem)) ∧ (reboot w).chip=w.chip:=by
  obtain ⟨counter,hreboot⟩:=reboot_eq w
  obtain ⟨hcreds,hcount⟩:=loaded_storage w.chip.rmem counter
  rw [hreboot]
  exact ⟨hcreds,hcount,rfl⟩

theorem Coherent.faithful (h : Coherent w) : Faithful w:=by
  obtain ⟨hcreds,hcount,-⟩:=reboot_storage w
  exact ⟨h.creds.trans hcreds.symm,by rw [h.credCount,hcount,h.creds]⟩

theorem coherent_reboot (w : Badge) : Coherent (reboot w):=by
  obtain ⟨hcreds,hcount,hchip⟩:=reboot_storage w
  exact ⟨by rw [hcreds,hchip],by rw [hcount,hcreds]⟩

end Rebuild

def Env.outcome (e : Env) (n : ℕ) : SeOutcome:=e.se.getD n .done

def failed : SeOutcome→Bool
  | .failed _ _=>true
  | _=>false

def lost (o : SeOutcome) : Bool:=failed o && !o.applied

def hidden (o : SeOutcome) : Bool:=failed o && o.applied

def erased (o : SeOutcome) (slot : ℕ) (rmem : ℕ→Option RmemContent) : ℕ→Option RmemContent:=
  if o.applied then Function.update rmem (rmemSlotForLogical slot) none else rmem

def written (o : SeOutcome) (slot : ℕ) (stored : StoredCred) (rmem : ℕ→Option RmemContent) : ℕ→Option RmemContent:=
  if o.applied ∧ rmem (rmemSlotForLogical slot)=none then
    Function.update rmem (rmemSlotForLogical slot) (some (.cred stored))
  else rmem

variable {α : Type} {u : Unit} {o : SeOutcome} {rmem : ℕ→Option RmemContent}

section Returns

variable {w t : Badge} {slot : ℕ} {stored : StoredCred} {call : Chip RmemContent → SeReply α × Chip RmemContent}
  {reply : SeReply Unit}

theorem applied_of_returned (hpowered : o.powered=true) (hlost : lost o=false) : o.applied=true:=by
  cases o with
  | done=>rfl
  | failed e applied=>simpa [lost,failed,SeOutcome.applied] using hlost
  | powerLost applied=>cases hpowered

theorem seCall_returns {reply : SeReply α}
    (h : seCall call w=(.ok reply,t)) :
    t={w with chip:=if (w.env.outcome 0).applied then (call w.chip).2 else w.chip}.given
        {w.env with se:=w.env.se.tail} ∧
      (w.env.outcome 0).powered=true ∧
      (w.env.outcome 0=.done → reply=(call w.chip).1) ∧
      (failed (w.env.outcome 0)=true→∃ e, reply=.error e):=by
  have hhead : w.env.se.headD .done=w.env.outcome 0:=by
    rw [Env.outcome]
    cases w.env.se <;> rfl
  unfold seCall at h
  rw [hhead] at h
  cases ho : w.env.outcome 0 with
  | done=>
    rw [ho] at h
    cases h
    exact ⟨rfl,rfl,fun _=>rfl,by simp [failed]⟩
  | failed e applied=>
    rw [ho] at h
    cases h
    exact ⟨rfl,rfl,by simp,fun _=>⟨e,rfl⟩⟩
  | powerLost applied=>
    rw [ho] at h
    cases h

theorem tail_outcome (e : Env) (n : ℕ) : ({e with se:=e.se.tail} : Env).outcome n=e.outcome (n+1):=by
  unfold Env.outcome
  cases e.se with
  | nil=>simp
  | cons o os=>simp

/-- After so many calls: the cache is as it was, and these are the records. -/
structure Ran (w t : Badge) (calls : ℕ) (rmem : ℕ→Option RmemContent) : Prop where
  storage : t.storage=w.storage
  rmem : t.chip.rmem=rmem
  outcome : ∀ n, t.env.outcome n=w.env.outcome (n+calls)

theorem Ran.trans {u : Badge} {m n : ℕ} {rmem rmem' : ℕ→Option RmemContent} (h : Ran w u m rmem)
    (h' : Ran u t n rmem') : Ran w t (m+n) rmem' where
  storage:=h'.storage.trans h.storage
  rmem:=h'.rmem
  outcome k:=by rw [h'.outcome,h.outcome,Nat.add_assoc,Nat.add_comm n]

theorem Ran.quiet {u : Badge} {m n : ℕ} (h : Ran w u m rmem)
    (h' : Ran u t n u.chip.rmem) : Ran w t (m+n) rmem:=
  h.trans (h.rmem ▸ h')

theorem seCall_ran {reply : SeReply α}
    (hcall : ∀ c, (call c).2.rmem=c.rmem) (h : seCall call w=(.ok reply,t)) : Ran w t 1 w.chip.rmem:=by
  obtain ⟨rfl,-⟩:=seCall_returns h
  refine ⟨rfl,?_,fun n=>tail_outcome _ _⟩
  dsimp only [Badge.given_chip]
  split
  · exact hcall _
  · rfl

theorem erase_ran (hslot : slotLogicalValid slot=true)
    (h : seCall (Chip.rmemErase (rmemSlotForLogical slot)) w=(.ok reply,t)) :
    Ran w t 1 (erased (w.env.outcome 0) slot w.chip.rmem) ∧ (w.env.outcome 0).powered=true:=by
  obtain ⟨rfl,hpowered,-⟩:=seCall_returns h
  refine ⟨⟨rfl,?_,fun n=>tail_outcome _ _⟩,hpowered⟩
  rw [Badge.given_chip,erased]
  dsimp only
  rw [Chip.rmemErase_lt (rmemSlotForLogical_lt hslot)]
  split <;> rfl

theorem write_ran (hslot : slotLogicalValid slot=true)
    (h : seCall (Chip.rmemWrite (rmemSlotForLogical slot) (.cred stored)) w=(.ok reply,t)) :
    Ran w t 1 (written (w.env.outcome 0) slot stored w.chip.rmem) ∧ (w.env.outcome 0).powered=true ∧
      (reply=.ok () ↔ w.env.outcome 0=.done ∧ w.chip.rmem (rmemSlotForLogical slot)=none):=by
  obtain ⟨rfl,hpowered,hdone,hfailed⟩:=seCall_returns h
  have hlt:=rmemSlotForLogical_lt hslot
  refine ⟨⟨rfl,?_,fun n=>tail_outcome _ _⟩,hpowered,?_⟩
  · rw [Badge.given_chip,written]
    dsimp only
    cases hold : w.chip.rmem (rmemSlotForLogical slot) with
    | none=>
      rw [Chip.rmemWrite_none hlt hold]
      simp only [and_true]
      split <;> rfl
    | some old=>
      rw [Chip.rmemWrite_some hlt hold,ite_self,if_neg (by simp)]
  · cases ho : w.env.outcome 0 with
    | done=>
      rw [hdone ho]
      cases hold : w.chip.rmem (rmemSlotForLogical slot) with
      | none=>simp [Chip.rmemWrite_none hlt hold]
      | some old=>simp [Chip.rmemWrite_some hlt hold]
    | failed e applied=>
      obtain ⟨e',rfl⟩:=hfailed (by rw [ho]; rfl)
      simp
    | powerLost applied=>
      rw [ho] at hpowered
      cases hpowered

theorem readRmemCredential_ran {record : Option StoredCred} (hslot : slotLogicalValid slot=true)
    (h : readRmemCredential slot w=(.ok record,t)) : Ran w t 1 w.chip.rmem ∧ (w.env.outcome 0).powered=true ∧
      (w.env.outcome 0=.done → record=recordOf (w.chip.rmem (rmemSlotForLogical slot))):=by
  have hlt:=rmemSlotForLogical_lt hslot
  obtain ⟨reply,u,hread,h⟩:=bind_ok.mp h
  have hran:=seCall_ran (fun c=>by rw [Chip.rmemRead_chip]) hread
  obtain ⟨-,hpowered,hdone,-⟩:=seCall_returns hread
  have hrecord : record=recordOf reply.toOption ∧ u=t:=by
    cases reply with
    | error e=>
      cases h
      exact ⟨rfl,rfl⟩
    | ok content=>
      cases content <;>
      · cases h
        exact ⟨rfl,rfl⟩
  obtain ⟨hrecord,rfl⟩:=hrecord
  refine ⟨hran,hpowered,fun ho=>?_⟩
  rw [hrecord,hdone ho]
  cases hold : w.chip.rmem (rmemSlotForLogical slot) with
  | none=>
    rw [Chip.rmemRead_none hlt hold]
    rfl
  | some content=>
    rw [Chip.rmemRead_some hlt hold]
    cases content <;> rfl

theorem writeRmemCredential_ran {done : Bool} (hslot : slotLogicalValid slot=true)
    (h : writeRmemCredential slot stored w=(.ok done,t)) :
    Ran w t 2 (written (w.env.outcome 1) slot stored (erased (w.env.outcome 0) slot w.chip.rmem)) ∧
      (w.env.outcome 0).powered=true ∧ (w.env.outcome 1).powered=true ∧
      (done=true ↔ w.env.outcome 1=.done ∧
        erased (w.env.outcome 0) slot w.chip.rmem (rmemSlotForLogical slot)=none):=by
  obtain ⟨reply,u,herase,h⟩:=bind_ok.mp h
  obtain ⟨reply',v,hwrite,h⟩:=bind_ok.mp h
  obtain ⟨heraseRan,herasePowered⟩:=erase_ran hslot herase
  obtain ⟨hwriteRan,hwritePowered,hiff⟩:=write_ran hslot hwrite
  rw [heraseRan.outcome,heraseRan.rmem] at hwriteRan hiff
  rw [heraseRan.outcome] at hwritePowered
  have hdone : (done=true ↔ reply'=.ok ()) ∧ v=t:=by
    cases reply' with
    | error e=>
      cases h
      simp
    | ok _=>
      cases h
      simp
  obtain ⟨hdone,rfl⟩:=hdone
  exact ⟨heraseRan.trans hwriteRan,herasePowered,hwritePowered,hdone.trans hiff⟩

theorem eraseSlotData_ran (hslot : slotLogicalValid slot=true) (h : eraseSlotData slot w=(.ok u,t)) :
    Ran w t 2 (erased (w.env.outcome 1) slot w.chip.rmem) ∧ (w.env.outcome 1).powered=true:=by
  obtain ⟨reply,v,hdelete,h⟩:=bind_ok.mp h
  obtain ⟨reply',v',herase,h⟩:=bind_ok.mp h
  cases h
  have hdeleteRan:=seCall_ran (fun c=>by unfold Chip.eccDelete; split <;> rfl) hdelete
  obtain ⟨heraseRan,hpowered⟩:=erase_ran hslot herase
  rw [hdeleteRan.outcome,hdeleteRan.rmem] at heraseRan
  rw [hdeleteRan.outcome] at hpowered
  exact ⟨hdeleteRan.trans heraseRan,hpowered⟩

theorem seCall_done {a : α}
    (h : seCall call w=(.ok (.ok a),t)) : w.env.outcome 0=.done:=by
  obtain ⟨-,hpowered,-,hfailed⟩:=seCall_returns h
  cases ho : w.env.outcome 0 with
  | done=>rfl
  | failed e applied=>
    obtain ⟨e,he⟩:=hfailed (by rw [ho]; rfl)
    cases he
  | powerLost applied=>
    rw [ho] at hpowered
    cases hpowered

theorem freshSecret_ran {secret : ℕ} (h : freshSecret w=(.ok secret,t)) : Ran w t 0 w.chip.rmem:=by
  cases h
  exact ⟨rfl,rfl,fun _=>rfl⟩

theorem getRandom_ran {n : ℕ} {reply : SeReply (ByteArr n)} (h : getRandom n w=(.ok reply,t)) :
    Ran w t 1 w.chip.rmem ∧ (∀ bytes, reply=.ok bytes→w.env.outcome 0=.done):=by
  obtain ⟨reply',u,hcall,h⟩:=bind_ok.mp h
  have hran:=seCall_ran (fun _=>rfl) hcall
  cases reply' with
  | error e=>
    cases h
    exact ⟨hran,fun _ hr=>by cases hr⟩
  | ok _=>
    cases h
    exact ⟨⟨hran.storage,hran.rmem,hran.outcome⟩,fun _ _=>seCall_done hcall⟩

theorem eccDelete_ran (h : seCall (Chip.eccDelete (eccSlotForLogical slot)) w=(.ok reply,t)) :
    Ran w t 1 w.chip.rmem:=
  seCall_ran (fun c=>by unfold Chip.eccDelete; split <;> rfl) h

theorem discard_ran {created : Option Created}
    (h : (seCall (Chip.eccDelete (eccSlotForLogical slot)) >>= fun _=>pure none : Ctap (Option Created)) w =
      (.ok created,t)) : Ran w t 1 w.chip.rmem:=by
  obtain ⟨reply,u,hdelete,h⟩:=bind_ok.mp h
  cases h
  exact eccDelete_ran hdelete

section Generate

variable (cr : FidoCrypto) {rpId : Bytes} {rpIdHash : ByteArr 32} {userId userName : Bytes} {resident : Bool}
  {credProtect : UInt8} {curve : EccCurve} {created : Option Created}

/-- The record is written after a key, its public part and a nonce were got, and it is cached where
its write succeeds. -/
theorem generateInSlot_ran (hslot : slotLogicalValid slot=true)
    (h : generateInSlot cr slot rpId rpIdHash userId userName resident credProtect curve w=(.ok created,t)) :
    (t.storage=w.storage ∧ t.chip.rmem=w.chip.rmem) ∨
      (w.env.outcome 1=.done ∧ w.env.outcome 2=.done ∧ w.env.outcome 3=.done) ∧
      (w.env.outcome 5).powered=true ∧ ∃ stored : StoredCred,
        t.chip.rmem=written (w.env.outcome 5) slot stored (erased (w.env.outcome 4) slot w.chip.rmem) ∧
        (if w.env.outcome 5=.done ∧ erased (w.env.outcome 4) slot w.chip.rmem (rmemSlotForLogical slot)=none then
          t.storage={w.storage.setCred slot (some stored.cached) with credCount:=w.storage.credCount+1}
        else t.storage=w.storage):=by
  obtain ⟨_,w₁,hdelete,h⟩:=bind_ok.mp h
  obtain ⟨secret,w₂,hsecret,h⟩:=bind_ok.mp h
  obtain ⟨generated,w₃,hgenerate,h⟩:=bind_ok.mp h
  have hran₂:=(eccDelete_ran hdelete).quiet (freshSecret_ran hsecret)
  have hran₃:=seCall_ran (fun c=>by unfold Chip.eccGenerate; split <;> [rfl; (split <;> rfl)]) hgenerate
  have hran₃:=hran₂.quiet hran₃
  cases generated with
  | error e=>
    cases h
    exact .inl ⟨hran₃.storage,hran₃.rmem⟩
  | ok _=>
  have hdone₁:=seCall_done hgenerate
  rw [hran₂.outcome] at hdone₁
  obtain ⟨key,w₄,hkey,h⟩:=bind_ok.mp h
  have hran₄:=seCall_ran (fun c=>by rw [Chip.eccGetPublicKey_chip]) hkey
  have hran₄:=hran₃.quiet hran₄
  cases key with
  | error e=>
    have hran:=hran₄.quiet (discard_ran h)
    exact .inl ⟨hran.storage,hran.rmem⟩
  | ok key=>
  have hdone₂:=seCall_done hkey
  rw [hran₃.outcome] at hdone₂
  obtain ⟨nonce,w₅,hnonce,h⟩:=bind_ok.mp h
  obtain ⟨hran₅,hdone₃⟩:=getRandom_ran hnonce
  have hran₅:=hran₄.quiet hran₅
  cases nonce with
  | error e=>
    have hran:=hran₅.quiet (discard_ran h)
    exact .inl ⟨hran.storage,hran.rmem⟩
  | ok nonce=>
  have hdone₃:=hdone₃ nonce rfl
  rw [hran₄.outcome] at hdone₃
  obtain ⟨done,w₆,hwrite,h⟩:=bind_ok.mp h
  obtain ⟨hran₆,-,hpowered,hdone⟩:=writeRmemCredential_ran hslot hwrite
  rw [hran₅.outcome,hran₅.outcome,hran₅.rmem] at hran₆ hdone
  rw [hran₅.outcome] at hpowered
  have hstorage:=hran₆.storage.trans hran₅.storage
  refine .inr ⟨⟨hdone₁,hdone₂,hdone₃⟩,hpowered,?_⟩
  cases done with
  | true=>
    cases h
    refine ⟨_,hran₆.rmem,?_⟩
    rw [if_pos (hdone.mp rfl),← hstorage]
    rfl
  | false=>
    have hdiscard:=discard_ran h
    refine ⟨_,hdiscard.rmem.trans hran₆.rmem,?_⟩
    rw [if_neg fun hd=>Bool.false_ne_true (hdone.mpr hd)]
    exact hdiscard.storage.trans hstorage

end Generate

end Returns

section Changes

variable {w t : Badge} {slot : ℕ}

theorem rebuilt_update (hslot : slotLogicalValid slot=true) (rmem : ℕ→Option RmemContent)
    (content : Option RmemContent) :
    rebuilt (Function.update rmem (rmemSlotForLogical slot) content) =
      Function.update (rebuilt rmem) slot ((recordOf content).map StoredCred.cached):=by
  funext i
  by_cases hi : i=slot
  · subst hi
    rw [rebuilt,if_pos hslot,Function.update_self,Function.update_self]
  · have hne : rmemSlotForLogical i≠rmemSlotForLogical slot:=fun h=>hi (rmemSlotForLogical_inj.mp h)
    rw [rebuilt,Function.update_of_ne hne,Function.update_of_ne hi,rebuilt]

theorem countP_update (his : is.Nodup) (hslot : slot∈is) (creds : ℕ→Option CachedCred)
    (c : Option CachedCred) :
    (is.countP fun i=>(Function.update creds slot c i).isSome)+(creds slot).isSome.toNat =
      (is.countP fun i=>(creds i).isSome)+c.isSome.toNat:=by
  induction is with
  | nil=>cases hslot
  | cons i is ih=>
    obtain ⟨hi,his⟩:=List.nodup_cons.mp his
    rw [List.countP_cons,List.countP_cons]
    by_cases hslot' : slot=i
    · subst hslot'
      have hrest : (is.countP fun j=>(Function.update creds slot c j).isSome)=is.countP fun j=>(creds j).isSome:=by
        refine List.countP_congr fun j hj=>?_
        have hne : j≠slot:=by
          rintro rfl
          exact hi hj
        rw [Function.update_of_ne hne]
      rw [hrest,Function.update_self]
      cases (creds slot).isSome <;> cases c.isSome <;> simp
    · have hrest:=ih his ((List.mem_cons.mp hslot).resolve_left hslot')
      rw [Function.update_of_ne (Ne.symm hslot')]
      omega

theorem credTotal_update (hslot : slotLogicalValid slot=true) (creds : ℕ→Option CachedCred) (c : Option CachedCred) :
    credTotal (Function.update creds slot c)+(creds slot).isSome.toNat=credTotal creds+c.isSome.toNat:=
  countP_update slots_nodup (mem_slots.mpr hslot) creds c

theorem Coherent.clear (h : Coherent w) (hslot : slotLogicalValid slot=true) (hused : (w.storage.creds slot).isSome=true)
    (hcreds : t.storage.creds=Function.update w.storage.creds slot none)
    (hcount : t.storage.credCount=w.storage.credCount-1)
    (hrmem : t.chip.rmem=Function.update w.chip.rmem (rmemSlotForLogical slot) none) : Coherent t where
  creds:=by
    rw [hcreds,hrmem,rebuilt_update hslot,h.creds]
    rfl
  credCount:=by
    have htotal:=credTotal_update hslot w.storage.creds none
    rw [hused] at htotal
    simp only [Bool.toNat_true,Option.isSome_none,Bool.toNat_false,add_zero] at htotal
    rw [hcount,h.credCount,hcreds,← htotal,UInt8.ofNat_add]
    exact UInt8.add_sub_cancel _ _

theorem Coherent.add (h : Coherent w) (hslot : slotLogicalValid slot=true) (hfree : w.storage.creds slot=none)
    {stored : StoredCred} (hcreds : t.storage.creds=Function.update w.storage.creds slot (some stored.cached))
    (hcount : t.storage.credCount=w.storage.credCount+1)
    (hrmem : t.chip.rmem=Function.update w.chip.rmem (rmemSlotForLogical slot) (some (.cred stored))) : Coherent t where
  creds:=by
    rw [hcreds,hrmem,rebuilt_update hslot,h.creds]
    rfl
  credCount:=by
    have htotal:=credTotal_update hslot w.storage.creds (some stored.cached)
    rw [hfree] at htotal
    simp only [Option.isSome_none,Bool.toNat_false,add_zero,Option.isSome_some,Bool.toNat_true] at htotal
    rw [hcount,h.credCount,hcreds,htotal,UInt8.ofNat_add]
    rfl

theorem Coherent.replace (h : Coherent w) (hslot : slotLogicalValid slot=true)
    (hused : (w.storage.creds slot).isSome=true) {stored : StoredCred}
    (hcreds : t.storage.creds=Function.update w.storage.creds slot (some stored.cached))
    (hcount : t.storage.credCount=w.storage.credCount)
    (hrmem : t.chip.rmem=Function.update w.chip.rmem (rmemSlotForLogical slot) (some (.cred stored))) : Coherent t where
  creds:=by
    rw [hcreds,hrmem,rebuilt_update hslot,h.creds]
    rfl
  credCount:=by
    have htotal:=credTotal_update hslot w.storage.creds (some stored.cached)
    rw [hused] at htotal
    simp only [Option.isSome_some,Bool.toNat_true] at htotal
    rw [hcount,h.credCount,hcreds,Nat.add_right_cancel htotal]

/-- A slot that the cache has no credential for is changed to one without a record. -/
theorem Coherent.unrecorded (h : Coherent w) (hslot : slotLogicalValid slot=true) (hfree : w.storage.creds slot=none)
    (hstorage : t.storage=w.storage) {content : Option RmemContent} (hcontent : recordOf content=none)
    (hrmem : t.chip.rmem=Function.update w.chip.rmem (rmemSlotForLogical slot) content) : Coherent t where
  creds:=by
    rw [hstorage,hrmem,rebuilt_update hslot,← h.creds,hcontent,Option.map_none,← hfree,Function.update_eq_self]
  credCount:=by rw [hstorage,h.credCount]

theorem Coherent.kept (h : Coherent w) (hstorage : t.storage=w.storage) (hrmem : t.chip.rmem=w.chip.rmem) :
    Coherent t where
  creds:=by rw [hstorage,hrmem,h.creds]
  credCount:=by rw [hstorage,h.credCount]

end Changes

variable {c : CachedCred}

section Operations

variable (cr : FidoCrypto) {w t : Badge} {slot : ℕ} {rpId : Bytes} {rpIdHash : ByteArr 32} {userId userName : Bytes}
  {userIdLen : UInt8} {resident : Bool} {credProtect : UInt8} {curve : EccCurve} {created : Option Created}

theorem written_refused (hpowered : o.powered=true) (hhidden : hidden o=false) (hrefused : ¬(o=.done ∧ rmem (rmemSlotForLogical slot)=none))
    (stored : StoredCred) : written o slot stored rmem=rmem:=by
  unfold written
  refine if_neg fun ⟨happlied,hnone⟩=>?_
  cases o with
  | done=>exact hrefused ⟨rfl,hnone⟩
  | failed e applied=>
    rw [SeOutcome.applied] at happlied
    rw [happlied] at hhidden
    cases hhidden
  | powerLost applied=>cases hpowered

theorem generateInSlot_coherent (hw : Coherent w) (hslot : slotLogicalValid slot=true)
    (hfree : w.storage.creds slot=none)
    (hheeded : w.env.outcome 1=.done→w.env.outcome 2=.done→w.env.outcome 3=.done →
      hidden (w.env.outcome 5)=false)
    (h : generateInSlot cr slot rpId rpIdHash userId userName resident credProtect curve w=(.ok created,t)) :
    Coherent t:=by
  obtain ⟨hstorage,hrmem⟩ | ⟨⟨hdone₁,hdone₂,hdone₃⟩,hpowered,stored,hrmem,hstorage⟩:=
    generateInSlot_ran cr hslot h
  · exact hw.kept hstorage hrmem
  have hhidden:=hheeded hdone₁ hdone₂ hdone₃
  split at hstorage
  · obtain ⟨hdone,hnone⟩:=‹_ ∧ _›
    refine hw.add hslot hfree (congrArg Storage.creds hstorage) (congrArg Storage.credCount hstorage) ?_
    rw [hrmem,written,if_pos ⟨by rw [hdone]; rfl,hnone⟩,erased]
    split
    · rw [Function.update_idem]
    · rfl
  · rw [written_refused hpowered hhidden ‹_›] at hrmem
    unfold erased at hrmem
    split at hrmem
    · exact hw.unrecorded hslot hfree hstorage rfl hrmem
    · exact hw.kept hstorage hrmem

theorem findByRpUser_used {s : Storage} (h : s.findByRpUser rpIdHash userId userIdLen=some slot) :
    slotLogicalValid slot=true ∧ (s.creds slot).isSome=true:=by
  refine ⟨mem_slots.mp (List.mem_of_find?_eq_some h),?_⟩
  have hany:=List.find?_some h
  cases hc : s.creds slot with
  | none=>simp [hc] at hany
  | some c=>rfl

theorem lookup_some {s : Storage} (h : s.lookup slot=some c) :
    slotLogicalValid slot=true ∧ s.creds slot=some c:=by
  unfold Storage.lookup at h
  split at h
  · exact ⟨‹_›,h⟩
  · cases h

theorem erase_coherent (hw : Coherent w) (hslot : slotLogicalValid slot=true)
    (hused : (w.storage.creds slot).isSome=true) (hlost : lost (w.env.outcome 1)=false)
    (h : eraseSlotData slot w=(.ok u,t)) : Coherent (emptied slot t):=by
  obtain ⟨hran,hpowered⟩:=eraseSlotData_ran hslot h
  have hrmem:=hran.rmem
  rw [erased,if_pos (applied_of_returned hpowered hlost)] at hrmem
  refine hw.clear hslot hused ?_ ?_ hrmem
  · rw [← hran.storage]
    rfl
  · rw [← hran.storage]
    rfl

theorem deleteCredential_coherent (hw : Coherent w) {deleted : Bool}
    (hheeded : (w.storage.lookup slot).isSome=true→lost (w.env.outcome 1)=false)
    (h : fido2StorageDeleteCredential slot w=(.ok deleted,t)) :
    Coherent t ∧ (deleted=true→t.storage.creds slot=none):=by
  unfold fido2StorageDeleteCredential at h
  rw [bind_gets] at h
  cases hlookup : w.storage.lookup slot with
  | none=>
    rw [hlookup] at h
    cases h
    exact ⟨hw,fun hd=>by cases hd⟩
  | some c=>
    rw [hlookup] at h hheeded
    obtain ⟨hslot,hcred⟩:=lookup_some hlookup
    obtain ⟨u,v,herase,h⟩:=bind_ok.mp h
    have hv:=erase_coherent hw hslot (by rw [hcred]; rfl) (hheeded rfl) herase
    cases h
    exact ⟨hv,fun _=>Function.update_self _ _ _⟩

/-- The erase before a replacement is not lost, and no new record is written in secret. -/
def Heeds.create (rpIdHash : ByteArr 32) (userId : Bytes) (userIdLen : UInt8) (w : Badge) : Prop:=
  match w.storage.findByRpUser rpIdHash userId userIdLen with
  | some _=>lost (w.env.outcome 1)=false ∧
      (w.env.outcome 3=.done→w.env.outcome 4=.done→w.env.outcome 5=.done→hidden (w.env.outcome 7)=false)
  | none=>
      w.env.outcome 1=.done→w.env.outcome 2=.done→w.env.outcome 3=.done→hidden (w.env.outcome 5)=false

theorem createCredential_coherent (hw : Coherent w) (hheeded : Heeds.create rpIdHash userId userIdLen w)
    (h : fido2StorageCreateCredential cr rpId rpIdHash userId userIdLen userName resident credProtect curve w =
      (.ok created,t)) : Coherent t:=by
  by_cases hlen : userIdMaxLen < userIdLen.toNat
  · unfold fido2StorageCreateCredential at h
    rw [if_pos hlen] at h
    cases h
    exact hw
  unfold Heeds.create at hheeded
  cases hold : w.storage.findByRpUser rpIdHash userId userIdLen with
  | none=>
    rw [hold] at hheeded
    cases hfree : w.storage.findFreeSlot with
    | none=>
      rw [createCredential_none _ _ _ _ _ _ _ _ (by rw [Storage.target,if_neg hlen,hold,hfree]; rfl)] at h
      cases h
      exact hw
    | some slot=>
      rw [createCredential_free _ _ _ _ _ _ _ _ hlen hold hfree] at h
      exact generateInSlot_coherent cr hw (findFreeSlot_valid hfree) (findFreeSlot_creds hfree) hheeded h
  | some slot=>
    rw [hold] at hheeded
    rw [createCredential_replace _ _ _ _ _ _ _ _ hlen hold] at h
    obtain ⟨hslot,hused⟩:=findByRpUser_used hold
    obtain ⟨u,v,herase,h⟩:=bind_ok.mp h
    have hv:=erase_coherent hw hslot hused hheeded.1 herase
    have hran:=(eraseSlotData_ran hslot herase).1
    have hempty : (emptied slot v).storage.creds slot=none:=Function.update_self _ _ _
    refine generateInSlot_coherent (w:=emptied slot v) cr hv hslot hempty ?_ h
    have houtcome : ∀ n, (emptied slot v).env.outcome n=w.env.outcome (n+2):=hran.outcome
    rw [houtcome,houtcome,houtcome,houtcome]
    exact hheeded.2

/-- The record is read, and written with the new count in time. -/
structure Heeds.increment (slot : ℕ) (w : Badge) : Prop where
  read : failed (w.env.outcome 0)=false
  erase : lost (w.env.outcome 1)=false
  write : lost (w.env.outcome 2)=false
  below : ∀ c, w.storage.lookup slot=some c → c.signCount≠0xFFFFFFFF

theorem Coherent.record (hw : Coherent w) (hslot : slotLogicalValid slot=true) {c : CachedCred}
    (hcred : w.storage.creds slot=some c) :
    ∃ stored : StoredCred, w.chip.rmem (rmemSlotForLogical slot)=some (.cred stored) ∧ stored.cached=c:=by
  rw [hw.creds,rebuilt,if_pos hslot] at hcred
  cases hrmem : w.chip.rmem (rmemSlotForLogical slot) with
  | none=>
    rw [hrmem] at hcred
    cases hcred
  | some content=>
    rw [hrmem] at hcred
    cases content with
    | cred stored=>exact ⟨stored,rfl,Option.some.inj hcred⟩
    | other=>cases hcred

theorem done_of_returned (hpowered : o.powered=true) (hfailed : failed o=false) : o=.done:=by
  cases o with
  | done=>rfl
  | failed e applied=>cases hfailed
  | powerLost applied=>cases hpowered

theorem incrementSignCount_coherent (hw : Coherent w) {n : UInt32}
    (hlookup : w.storage.lookup slot=some c) (hheeded : Heeds.increment slot w)
    (h : fido2StorageIncrementSignCount slot w=(.ok n,t)) :
    Coherent t ∧ n=c.signCount+1 ∧ ∃ stored : StoredCred, stored.signCount=n ∧
      t.chip.rmem=Function.update w.chip.rmem (rmemSlotForLogical slot) (some (.cred stored)):=by
  obtain ⟨hslot,hcred⟩:=lookup_some hlookup
  obtain ⟨stored,hrecord,rfl⟩:=hw.record hslot hcred
  unfold fido2StorageIncrementSignCount at h
  rw [bind_gets,hlookup] at h
  obtain ⟨_,w₁,hcache,h⟩:=bind_ok.mp h
  cases hcache
  obtain ⟨record,w₂,hread,h⟩:=bind_ok.mp h
  obtain ⟨hran₂,hpowered₀,hdone⟩:=readRmemCredential_ran hslot hread
  have hrecord':=hdone (done_of_returned hpowered₀ hheeded.read)
  obtain rfl : record=some stored:=hrecord'.trans (congrArg recordOf hrecord)
  obtain ⟨done,w₃,hwrite,h⟩:=bind_ok.mp h
  cases h
  obtain ⟨hran₃,hpowered₁,hpowered₂,-⟩:=writeRmemCredential_ran hslot hwrite
  rw [hran₂.outcome] at hpowered₁ hpowered₂
  have hrmem:=hran₃.rmem
  rw [hran₂.outcome,hran₂.outcome,hran₂.rmem,erased,if_pos (applied_of_returned hpowered₁ hheeded.erase),written,
    if_pos ⟨applied_of_returned hpowered₂ hheeded.write,Function.update_self _ _ _⟩,Function.update_idem] at hrmem
  have hstorage:=hran₃.storage.trans hran₂.storage
  refine ⟨hw.replace hslot (by rw [hcred]; rfl) ?_ ?_ hrmem,rfl,_,rfl,hrmem⟩
  · rw [hstorage]
    rfl
  · rw [hstorage]
    rfl

theorem counterLoad_eq (w : Badge) : ∃ counter nvs, fido2StorageCounterLoad w=(.ok (),{ w with
    storage:={w.storage with authCounter:=counter,counterLoaded:=true}
    env:={w.env with nvs:=nvs} }):=by
  have hnvs : ∃ counter nvs, nvsRead (·.counter) w=(.ok counter,w.given {w.env with nvs:=nvs}):=by
    have hnext : nextNvs w=(.ok (w.env.nvs.headD .done),w.given {w.env with nvs:=w.env.nvs.tail}):=rfl
    unfold nvsRead
    rw [bind_of_ok hnext]
    cases w.env.nvs.headD .done <;> exact ⟨_,_,rfl⟩
  obtain ⟨counter,nvs,hnvs⟩:=hnvs
  refine ⟨counter.getD 0,nvs,?_⟩
  unfold fido2StorageCounterLoad
  rw [bind_of_ok hnvs]
  rfl

theorem init_loop_ran (his : ∀ i∈is, slotLogicalValid i=true)
    (hread : ∀ n < is.length, failed (w.env.outcome n)=false)
    (h : is.forM initSlot w=(.ok u,t)) :
    t.storage=is.foldl (loadSlot w.chip.rmem) w.storage ∧ t.chip.rmem=w.chip.rmem:=by
  induction is generalizing w with
  | nil=>
    cases h
    exact ⟨rfl,rfl⟩
  | cons i is ih=>
    obtain ⟨_,v,hround,hrest⟩:=bind_ok.mp h
    obtain ⟨record,v',hrecord,hround⟩:=bind_ok.mp hround
    obtain ⟨hran,hpowered,hdone⟩:=readRmemCredential_ran (his i List.mem_cons_self) hrecord
    have hrecord:=hdone (done_of_returned hpowered (hread 0 (Nat.succ_pos _)))
    have hv : v={v' with storage:=loadSlot w.chip.rmem w.storage i}:=by
      rw [loadSlot,← hrecord,← hran.storage]
      cases record <;>
      · cases hround
        rfl
    subst hv
    have houtcome : ∀ n < is.length, failed (v'.env.outcome n)=false:=by
      intro n hn
      rw [hran.outcome]
      exact hread (n+1) (by simpa using hn)
    obtain ⟨hstorage,hrmem⟩:=ih (w:={v' with storage:=loadSlot w.chip.rmem w.storage i})
      (fun j hj=>his j (List.mem_cons_of_mem i hj)) houtcome hrest
    refine ⟨?_,hrmem.trans hran.rmem⟩
    rw [hstorage]
    dsimp only
    rw [hran.rmem]
    rfl

theorem init_coherent (hread : ∀ n < slots.length, failed (w.env.outcome n)=false)
    (h : fido2StorageInit w=(.ok u,t)) : Coherent t:=by
  obtain ⟨counter,nvs,hload⟩:=counterLoad_eq {w with storage:={}}
  unfold fido2StorageInit at h
  rw [updateStorage,bind_modify,bind_of_ok hload] at h
  obtain ⟨hstorage,hrmem⟩:=init_loop_ran (fun _ hi=>mem_slots.mp hi) (by exact hread) h
  have hloaded:=loaded_storage w.chip.rmem counter
  rw [← hstorage] at hloaded
  exact ⟨by rw [hloaded.1,hrmem],by rw [hloaded.2,hloaded.1]⟩

end Operations

/-- The arguments of a new credential. -/
structure NewCredential where
  rpId : Bytes
  rpIdHash : ByteArr 32
  userId : Bytes
  userIdLen : UInt8
  userName : Bytes
  resident : Bool
  credProtect : UInt8
  curve : EccCurve

inductive StoreOp
  | create (new : NewCredential)
  | delete (slot : ℕ)
  | incrementSignCount (slot : ℕ)
  | init

deriving instance DecidableEq for Created

inductive StoreAnswer
  | created (c : Option Created)
  | deleted (b : Bool)
  | count (n : UInt32)
  | started
  deriving DecidableEq

/-- An operation and what it meets. -/
structure StoreEvent where
  op : StoreOp
  env : Env

/-- The badge, and the last count that was returned for the credential of each slot. -/
structure Life where
  badge : Badge
  counts : ℕ→UInt32

section Life

variable (cr : FidoCrypto)

def StoreOp.run : StoreOp → Ctap StoreAnswer
  | .create new=>do
    let c ← fido2StorageCreateCredential cr new.rpId new.rpIdHash new.userId new.userIdLen new.userName new.resident
      new.credProtect new.curve
    pure (.created c)
  | .delete slot=>do
    let b ← fido2StorageDeleteCredential slot
    pure (.deleted b)
  | .incrementSignCount slot=>do
    let n ← fido2StorageIncrementSignCount slot
    pure (.count n)
  | .init=>do
    fido2StorageInit
    pure .started

def settleStore : Except Halt StoreAnswer × Badge→Badge
  | (.ok _,t)=>t
  | (.error _,t)=>reboot t

/-- The counts after an operation. A slot's record that a new credential took the place of is at an end, and
so is its count. -/
def countsAfter (counts : ℕ→UInt32) (w : Badge) : StoreOp → Except Halt StoreAnswer × Badge → ℕ→UInt32
  | .create _, r=>fun slot=>
    if r.2.chip.rmem (rmemSlotForLogical slot)=w.chip.rmem (rmemSlotForLogical slot) then counts slot else 0
  | .delete _, _=>counts
  | .incrementSignCount slot, r=>
    match r.1 with
    | .ok (.count n)=>if (w.storage.lookup slot).isSome then Function.update counts slot n else counts
    | _=>counts
  | .init, _=>counts

namespace Life

def result (l : Life) (ev : StoreEvent) : Except Halt StoreAnswer × Badge:=ev.op.run cr (l.badge.given ev.env)

def step (l : Life) (ev : StoreEvent) : Life where
  badge:=settleStore (l.result cr ev)
  counts:=countsAfter l.counts l.badge ev.op (l.result cr ev)

def init (w : Badge) : Life where
  badge:=reboot w
  counts _:=0

/-- After the operation the cache is what initialisation would rebuild. -/
def Rebuilds (l : Life) (ev : StoreEvent) : Prop:=Faithful (l.step cr ev).badge

/-- A credential that is reported deleted is not there after a reboot. -/
def StaysDeleted (l : Life) (ev : StoreEvent) : Prop:=∀ slot, ev.op=.delete slot →
  (l.result cr ev).1=.ok (.deleted true)→(reboot (l.step cr ev).badge).storage.lookup slot=none

/-- The count returned for a credential is above those that were returned for it before. -/
def CountsUp (l : Life) (ev : StoreEvent) : Prop:=∀ slot n, ev.op=.incrementSignCount slot →
  (l.badge.storage.lookup slot).isSome=true→(l.result cr ev).1=.ok (.count n)→l.counts slot < n

def Heeded (l : Life) (ev : StoreEvent) : Prop:=
  match ev.op with
  | .create new=>Heeds.create new.rpIdHash new.userId new.userIdLen (l.badge.given ev.env)
  | .delete slot=>(l.badge.storage.lookup slot).isSome=true→lost (ev.env.outcome 1)=false
  | .incrementSignCount slot=>(l.badge.storage.lookup slot).isSome=true →
      Heeds.increment slot (l.badge.given ev.env)
  | .init=>∀ n < slots.length, failed (ev.env.outcome n)=false

end Life

/-- The counts that were returned are not above the records'. -/
def Below (counts : ℕ→UInt32) (w : Badge) : Prop:=∀ (slot : ℕ) (stored : StoredCred), slotLogicalValid slot=true →
  w.chip.rmem (rmemSlotForLogical slot)=some (.cred stored) → counts slot ≤ stored.signCount

section Below

variable {counts : ℕ→UInt32} {slot : ℕ}

theorem Below.of_rmem {w t : Badge} (h : Below counts w) (hrmem : t.chip.rmem=w.chip.rmem) : Below counts t:=by
  intro slot stored hslot hrecord
  rw [hrmem] at hrecord
  exact h slot stored hslot hrecord

theorem Below.update {w t : Badge} (h : Below counts w) {c : Option RmemContent}
    (hc : ∀ stored, c=some (.cred stored) → counts slot ≤ stored.signCount)
    (hrmem : t.chip.rmem=Function.update w.chip.rmem (rmemSlotForLogical slot) c) : Below counts t:=by
  intro i stored hi hrecord
  rw [hrmem] at hrecord
  by_cases his : i=slot
  · subst his
    rw [Function.update_self] at hrecord
    exact hc stored hrecord
  · rw [Function.update_of_ne fun he=>his (rmemSlotForLogical_inj.mp he)] at hrecord
    exact h i stored hi hrecord

theorem keeps_below_erase : Keeps (Below counts) (seCall (Chip.rmemErase (rmemSlotForLogical slot))):=by
  refine keeps_seCall (fun _ _=>rfl) fun w hw=>?_
  unfold Chip.rmemErase
  split
  · exact hw
  · exact hw.update (c:=none) (fun _ hc=>by cases hc) rfl

theorem keeps_below_eraseSlotData : Keeps (Below counts) (eraseSlotData slot):=by
  refine Keeps.bind (keeps_seCall (fun _ _=>rfl) fun w hw=>?_) fun _=>Keeps.bind keeps_below_erase fun _=>Keeps.pure _
  unfold Chip.eccDelete
  split <;> exact hw

theorem keeps_below_writeRmemCredential {stored : StoredCred} (hcount : counts slot ≤ stored.signCount) :
    Keeps (Below counts) (writeRmemCredential slot stored):=by
  refine Keeps.bind keeps_below_erase fun _=>Keeps.bind (keeps_seCall (fun _ _=>rfl) fun w hw=>?_) fun reply=>?_
  · unfold Chip.rmemWrite
    split
    · exact hw
    · split
      · exact hw
      · refine hw.update (fun stored' hs=>?_) rfl
        cases hs
        exact hcount
  · cases reply <;> exact Keeps.pure _

theorem keeps_below_deleteCredential : Keeps (Below counts) (fido2StorageDeleteCredential slot):=by
  refine Keeps.bind (Keeps.gets _) fun storage=>?_
  cases storage.lookup slot with
  | none=>exact Keeps.pure _
  | some c=>
    exact Keeps.bind keeps_below_eraseSlotData fun _=>Keeps.bind (Keeps.modify fun _ h=>h) fun _=>Keeps.pure _

theorem keeps_below_init : Keeps (Below counts) fido2StorageInit:=by
  have hquiet : ∀ {α : Type} {m : Ctap α}, Quiet m→Keeps (Below counts) m:=fun h=>h.keeps fun _ _=>rfl
  refine Keeps.bind (Keeps.modify fun _ h=>h) fun _=>Keeps.bind ?_ fun _=>Keeps.forM fun i=>?_
  · exact Keeps.bind (hquiet (Quiet.nvsRead _)) fun _=>Keeps.modify fun _ h=>h
  · refine Keeps.bind (hquiet (Quiet.readRmemCredential i)) fun record=>?_
    cases record with
    | none=>exact Keeps.pure _
    | some stored=>exact Keeps.bind (Keeps.modify fun _ h=>h) fun _=>Keeps.modify fun _ h=>h

theorem keeps_below_count (hcount : counts slot ≤ c.signCount+1) : Keeps (Below counts) (do
    updateStorage fun s=>s.setCred slot (some {c with signCount:=c.signCount+1})
    match ← readRmemCredential slot with
    | none=>pure (c.signCount+1)
    | some stored=>
      let _ ← writeRmemCredential slot {stored with signCount:=c.signCount+1}
      pure (c.signCount+1)):=by
  refine Keeps.bind (Keeps.modify fun _ h=>h) fun _=>?_
  refine Keeps.bind ((Quiet.readRmemCredential slot).keeps fun _ _=>rfl) fun record=>?_
  cases record with
  | none=>exact Keeps.pure _
  | some stored=>exact Keeps.bind (keeps_below_writeRmemCredential hcount) fun _=>Keeps.pure _

/-- The count of a credential goes up from one that is not below what was returned. -/
theorem incrementSignCount_below {w : Badge} (hlookup : w.storage.lookup slot=some c)
    (hcount : counts slot ≤ c.signCount+1) (hw : Below counts w) :
    Below counts (fido2StorageIncrementSignCount slot w).2:=by
  unfold fido2StorageIncrementSignCount
  rw [bind_gets,hlookup]
  exact keeps_iff.mp (keeps_below_count hcount) w hw

theorem Below.settle {r : Except Halt StoreAnswer × Badge} (h : Below counts r.2) : Below counts (settleStore r):=by
  obtain ⟨r,t⟩:=r
  cases r with
  | ok a=>exact h
  | error e=>exact h.of_rmem (congrArg Chip.rmem (reboot_storage t).2.2)

end Below

namespace Life

variable {cr} {l : Life} {ev : StoreEvent}

/-- The cache is coherent, and no count is above its record's. -/
structure Sound (l : Life) : Prop where
  coherent : Coherent l.badge
  below : Below l.counts l.badge

theorem coherent_given {w : Badge} (h : Coherent w) (e : Env) : Coherent (w.given e):=⟨h.creds,h.credCount⟩

theorem run_result {m : Ctap α} {f : α → StoreAnswer} {w t : Badge} {a : StoreAnswer}
    (h : (m >>= fun x=>pure (f x) : Ctap StoreAnswer) w=(.ok a,t)) : ∃ x, m w=(.ok x,t) ∧ a=f x:=by
  obtain ⟨x,u,hm,h⟩:=bind_ok.mp h
  cases h
  exact ⟨x,hm,rfl⟩

theorem run_state {m : Ctap α} {f : α → StoreAnswer} {w : Badge} :
    ((m >>= fun x=>pure (f x) : Ctap StoreAnswer) w).2=(m w).2:=by
  rw [bind_apply]
  cases m w with
  | mk r t=>cases r <;> rfl

theorem Sound.step_coherent (hl : l.Sound) (hheeded : l.Heeded ev) : Coherent (l.step cr ev).badge:=by
  have hw:=coherent_given hl.coherent ev.env
  unfold Life.step
  dsimp only
  cases hr : l.result cr ev with
  | mk r t=>
  cases r with
  | error e=>exact coherent_reboot t
  | ok a=>
  rw [settleStore]
  unfold Life.Heeded at hheeded
  unfold Life.result at hr
  cases hop : ev.op with
  | create new=>
    rw [hop] at hr hheeded
    obtain ⟨c,hc,-⟩:=run_result hr
    exact createCredential_coherent cr hw hheeded hc
  | delete slot=>
    rw [hop] at hr hheeded
    obtain ⟨b,hb,-⟩:=run_result hr
    exact (deleteCredential_coherent hw hheeded hb).1
  | incrementSignCount slot=>
    rw [hop] at hr hheeded
    obtain ⟨n,hn,-⟩:=run_result hr
    cases hlookup : l.badge.storage.lookup slot with
    | none=>
      unfold fido2StorageIncrementSignCount at hn
      rw [bind_gets,Badge.given_storage,hlookup] at hn
      cases hn
      exact hw
    | some c=>
      have hheeds:=hheeded (by rw [hlookup]; rfl)
      exact (incrementSignCount_coherent hw hlookup hheeds hn).1
  | init=>
    rw [hop] at hr hheeded
    obtain ⟨u,hu,-⟩:=run_result (f:=fun _=>.started) hr
    exact init_coherent hheeded hu

theorem Sound.stays_deleted (hl : l.Sound) (hheeded : l.Heeded ev) : l.StaysDeleted cr ev:=by
  intro slot hop hdeleted
  have hcoherent : Coherent (l.step cr ev).badge:=hl.step_coherent hheeded
  unfold Life.Heeded at hheeded
  cases hr : l.result cr ev with
  | mk r t=>
  rw [hr] at hdeleted
  obtain rfl : r=.ok (.deleted true):=hdeleted
  have hbadge : (l.step cr ev).badge=t:=by
    unfold Life.step
    rw [hr,settleStore]
  rw [hbadge] at hcoherent ⊢
  unfold Life.result at hr
  rw [hop] at hr hheeded
  obtain ⟨b,hb,hd⟩:=run_result hr
  obtain rfl : true=b:=StoreAnswer.deleted.inj hd
  have hnone:=(deleteCredential_coherent (coherent_given hl.coherent ev.env) hheeded hb).2 rfl
  unfold Storage.lookup
  rw [← hcoherent.faithful.creds,hnone,ite_self]

theorem lt_succ_of_ne {c : UInt32} (h : c≠0xFFFFFFFF) : c < c+1:=by
  rw [UInt32.lt_iff_toNat_lt,UInt32.toNat_add]
  have hne : c.toNat≠0xFFFFFFFF:=fun he=>h (UInt32.toNat_inj.mp he)
  have:=c.toNat_lt
  change c.toNat < (c.toNat+1) % 2^32
  omega

theorem Sound.counts_lt (hl : l.Sound) {slot : ℕ} (hlookup : l.badge.storage.lookup slot=some c)
    (hne : c.signCount≠0xFFFFFFFF) : l.counts slot < c.signCount+1:=by
  obtain ⟨hslot,hcred⟩:=lookup_some hlookup
  obtain ⟨stored,hrecord,rfl⟩:=hl.coherent.record hslot hcred
  exact UInt32.lt_of_le_of_lt (hl.below slot stored hslot hrecord) (lt_succ_of_ne hne)

theorem Sound.counts_up (hl : l.Sound) (hheeded : l.Heeded ev) : l.CountsUp cr ev:=by
  intro slot n hop hused hcount
  unfold Life.Heeded at hheeded
  rw [hop] at hheeded
  have hheeds:=hheeded hused
  obtain ⟨c,hlookup⟩:=Option.isSome_iff_exists.mp hused
  cases hr : l.result cr ev with
  | mk r t=>
  rw [hr] at hcount
  obtain rfl : r=.ok (.count n):=hcount
  unfold Life.result at hr
  rw [hop] at hr
  obtain ⟨n',hn,he⟩:=run_result hr
  obtain rfl : n=n':=StoreAnswer.count.inj he
  obtain ⟨-,rfl,-⟩:=incrementSignCount_coherent (coherent_given hl.coherent ev.env) hlookup hheeds hn
  exact hl.counts_lt hlookup (hheeds.below c hlookup)

theorem Sound.step_below (hl : l.Sound) (hheeded : l.Heeded ev) :
    Below (l.step cr ev).counts (l.step cr ev).badge:=by
  have hw : Below l.counts (l.badge.given ev.env):=hl.below.of_rmem rfl
  refine Below.settle ?_
  unfold Life.step
  dsimp only
  unfold Life.Heeded at hheeded
  cases hop : ev.op with
  | create new=>
    intro slot stored hslot hrecord
    rw [countsAfter]
    dsimp only
    split
    · exact hl.below slot stored hslot (‹_=_› ▸ hrecord)
    · exact UInt32.zero_le
  | delete slot=>
    rw [countsAfter,Life.result,hop,StoreOp.run,run_state]
    exact keeps_iff.mp keeps_below_deleteCredential _ hw
  | init=>
    rw [countsAfter,Life.result,hop,StoreOp.run,run_state (m:=fido2StorageInit) (f:=fun _=>.started)]
    exact keeps_iff.mp keeps_below_init _ hw
  | incrementSignCount slot=>
    rw [hop] at hheeded
    cases hlookup : l.badge.storage.lookup slot with
    | none=>
      have hcounts : ∀ r, countsAfter l.counts l.badge (.incrementSignCount slot) r=l.counts:=by
        intro r
        rw [countsAfter,hlookup]
        split <;> rfl
      have hstate : (l.result cr ev).2=l.badge.given ev.env:=by
        rw [Life.result,hop,StoreOp.run,run_state,fido2StorageIncrementSignCount,bind_gets,Badge.given_storage,
          hlookup]
        rfl
      rw [hcounts,hstate]
      exact hw
    | some c=>
      have hheeds:=hheeded (by rw [hlookup]; rfl)
      have hlt:=hl.counts_lt hlookup (hheeds.below c hlookup)
      cases hr : l.result cr ev with
      | mk r t=>
      unfold Life.result at hr
      rw [hop] at hr
      cases r with
      | error e=>
        have ht : (fido2StorageIncrementSignCount slot (l.badge.given ev.env)).2=t:=by
          rw [← run_state (f:=.count)]
          exact congrArg Prod.snd hr
        rw [countsAfter,← ht]
        exact incrementSignCount_below hlookup (UInt32.le_of_lt hlt) hw
      | ok a=>
        obtain ⟨n,hn,rfl⟩:=run_result hr
        obtain ⟨-,-,stored,hstored,hrmem⟩:=
          incrementSignCount_coherent (coherent_given hl.coherent ev.env) hlookup hheeds hn
        have hcounts : countsAfter l.counts l.badge (.incrementSignCount slot) (.ok (.count n),t) =
            Function.update l.counts slot n:=by
          rw [countsAfter,hlookup]
          rfl
        rw [hcounts]
        intro i stored' hi hrecord
        dsimp only at hrecord
        rw [hrmem] at hrecord
        by_cases his : i=slot
        · subst his
          rw [Function.update_self] at hrecord
          cases hrecord
          rw [Function.update_self,hstored]
          exact UInt32.le_refl n
        · rw [Function.update_of_ne fun he=>his (rmemSlotForLogical_inj.mp he)] at hrecord
          rw [Function.update_of_ne his]
          exact hl.below i stored' hi hrecord

theorem sound_init (w : Badge) : (init w).Sound where
  coherent:=coherent_reboot w
  below _ _ _ _:=UInt32.zero_le

theorem Sound.step (hl : l.Sound) (hheeded : l.Heeded ev) : (l.step cr ev).Sound:=
  ⟨hl.step_coherent hheeded,hl.step_below hheeded⟩

/-- In every run in which no failure of the chip goes unnoticed, the cache is after each operation what
initialisation would rebuild, what is deleted stays deleted, and the counts of a credential go up. -/
theorem cache_rebuilt (cr : FidoCrypto) (w : Badge) (es : List StoreEvent)
    (hes : AlongRun (Life.step cr) Life.Heeded (init w) es) :
    AlongRun (Life.step cr) (fun l ev=>l.Rebuilds cr ev ∧ l.StaysDeleted cr ev ∧ l.CountsUp cr ev) (init w) es:=by
  have hsteps : ∀ (l : Life) ev, l.Heeded ev→l.Sound →
      (l.Rebuilds cr ev ∧ l.StaysDeleted cr ev ∧ l.CountsUp cr ev) ∧ (l.step cr ev).Sound:=by
    intro l ev hheeded hl
    have hstep : (l.step cr ev).Sound:=hl.step hheeded
    exact ⟨⟨hstep.coherent.faithful,hl.stays_deleted hheeded,hl.counts_up hheeded⟩,hstep⟩
  exact AlongRun.of_invariant hsteps (sound_init w) hes

def blankBadge : Badge:={chip:={ecc:=fun _=>none,rmem:=fun _=>none}}

def createAlice : StoreEvent where
  op:=.create { rpId:=[97],rpIdHash:=zeros 32,userId:=[1],userIdLen:=1,userName:=[97],resident:=true
                credProtect:=1,curve:=.p256 }
  env:={secrets:=[7]}

/-- A credential is created and its count raised. The erases are reported to fail, but they take effect. -/
def heededRun : List StoreEvent:=[createAlice,
  {op:=.incrementSignCount 0,env:={se:=[.done,.failed .error true]}},
  {op:=.delete 0,env:={se:=[.done,.failed .error true]}}]

theorem cache_rebuilt_heededRun :
    AlongRun (Life.step FidoCrypto.plain) (fun l ev=>l.Rebuilds FidoCrypto.plain ev ∧
      l.StaysDeleted FidoCrypto.plain ev ∧ l.CountsUp FidoCrypto.plain ev) (init blankBadge) heededRun:=by
  have hcount : ((((init blankBadge).step FidoCrypto.plain createAlice).badge.storage.lookup 0).all
      fun c=>c.signCount != 0xFFFFFFFF)=true:=by decide +kernel
  have hes : AlongRun (Life.step FidoCrypto.plain) Life.Heeded (init blankBadge) heededRun:=by
    refine ⟨?_,fun _=>⟨rfl,rfl,rfl,fun c hc=>?_⟩,fun _=>rfl,trivial⟩
    · have hnew : (init blankBadge).badge.storage.findByRpUser (zeros 32) [1] 1=none:=by decide +kernel
      change Heeds.create (zeros 32) [1] 1 ((init blankBadge).badge.given createAlice.env)
      rw [Heeds.create,Badge.given_storage,hnew]
      exact fun _ _ _=>rfl
    · rw [Badge.given_storage] at hc
      rw [hc] at hcount
      simpa using hcount
  exact cache_rebuilt FidoCrypto.plain blankBadge heededRun hes

def lostErase : List StoreEvent:=[createAlice,
  {op:=.delete 0,env:={se:=[.done,.failed .error false]}}]

/-- The credential that was reported deleted is back after a reboot. -/
theorem deleted_comes_back :
    ¬AlongRun (Life.step FidoCrypto.plain) (fun l ev=>l.Rebuilds FidoCrypto.plain ev ∧
      l.StaysDeleted FidoCrypto.plain ev ∧ l.CountsUp FidoCrypto.plain ev) (init blankBadge) lostErase:=by
  rintro ⟨-,⟨-,hdeleted,-⟩,-⟩
  have hreported : (((init blankBadge).step FidoCrypto.plain createAlice).result FidoCrypto.plain
      {op:=.delete 0,env:={se:=[.done,.failed .error false]}}).1=.ok (.deleted true):=by
    decide +kernel
  have hnone:=hdeleted 0 rfl hreported
  revert hnone
  decide +kernel

end Life

end Life

end CdcBadge.Fido2
