import CdcBadge.OathReading
import CdcBadge.PivAccess

/-!
# Response chaining of the applets

PIV and YKOATH hand out a long response in windows. What is left of one outlives the commands
that need no windows of their own.
-/

namespace CdcBadge.Scard

/-- The applets deliver every payload, whatever the Le of each command. What is left of one is forgotten by the other
commands that have a rest of their own or stop, and by no more; it is forgotten where the applet is deselected. -/
theorem applet_responses_read {β γ : Type} (p : Piv.Backend β) (o : Oath.Backend γ) :
    (∀ s i c payload, Piv.commandIn s i=some c→Piv.builds p s c=.ok {data:=payload,sw:=Piv.swOk} →
      Piv.responseCode.Delivered (Piv.exchange p) Piv.IsGet payload s i) ∧
    (∀ s i a payload, Oath.parsed i=some a→Oath.isSendRemaining a=false →
      Oath.builds o s a=.ok {data:=payload,sw:=Oath.swOk} →
      Oath.responseCode.Delivered (Oath.exchange o) Oath.IsSend payload s i) ∧
    (∀ s i, (∀ a, apduParse i.1=some a→Piv.isGetResponse a=false) →
      ((Piv.reader p).Forgotten s i ↔ s.app.resp=[] ∨ Piv.Replaces p s i)) ∧
    (∀ s i, (∀ a, apduParse i.1=some a→Oath.isSendRemaining a=false) →
      ((Oath.reader o).Forgotten s i ↔ s.app.resp=[] ∨ Oath.Replaces o s i)) ∧
    (∀ s, Piv.deselect s=Piv.deselect ((Piv.reader p).withPending [] s)) ∧
    ∀ s, Oath.deselect s=Oath.deselect ((Oath.reader o).withPending [] s):=by
  refine ⟨?_,?_,?_,?_,fun _=>rfl,fun _=>rfl⟩
  · intro s i c payload hc hbuilds
    exact Piv.delivered hc hbuilds
  · intro s i a payload ha hother hbuilds
    exact Oath.delivered ha hother hbuilds
  · intro s i hother
    exact Piv.forgotten_iff hother
  · intro s i hother
    exact Oath.forgotten_iff hother

section Selects

def oathPlain : Oath.Backend Unit where
  capacity _:=1
  read _:=pure none
  calculate _ _:=pure none
  addRaw _:=pure true
  remove _:=pure true
  wipeAll:=pure ()
  devId:=pure (zeros 8)
  akeyGet:=pure none
  akeySet _:=pure true
  akeyClear:=pure ()
  hmacSha1 _ _:=pure none
  rng:=pure (some (zeros 8))
  touchOk _:=pure true

def selectByte : Bytes × ℕ:=([0x00,0xA4,0x04,0x00,0x01,0xA0,0x01],2048)

def logout : Bytes × ℕ:=([0x00,Piv.insVerify,0xFF,Piv.keyPin],2048)

def pivPayload : Bytes:=Piv.buildApt.getD []

def oathPayload : Bytes:=
  [Oath.tagVersion,0x03,0x05,0x04,0x03,Oath.tagName,0x08]++(zeros 8).toList

theorem pivReplaces : Piv.Replaces .plain (Piv.exchange .plain {be:=()} selectByte).2 selectByte:=by
  refine ⟨{ins:=0xA4,p1:=0x04,p2:=0x00,data:=[0xA0],le:=1},by rfl,?_⟩
  rw [show Piv.builds .plain _ _=.ok {data:=pivPayload,sw:=Piv.swOk} from by rfl]
  exact ⟨fun h=>absurd h.1 (by decide),by decide⟩

theorem oathReplaces : Oath.Replaces oathPlain (Oath.exchange oathPlain {be:=()} selectByte).2 selectByte:=by
  refine ⟨{ins:=0xA4,p1:=0x04,lc:=1,data:=[0xA0],le:=1},by rfl,?_⟩
  rw [show Oath.builds oathPlain _ _=.ok {data:=oathPayload,sw:=Oath.swOk} from by rfl]
  decide

/-- The payloads of a SELECT, and a second SELECT whose payload takes the place of what was left of the first. -/
theorem responses_read_select :
    Piv.responseCode.Delivered (Piv.exchange .plain) Piv.IsGet pivPayload {be:=()} selectByte ∧
      Oath.responseCode.Delivered (Oath.exchange oathPlain) Oath.IsSend oathPayload {be:=()} selectByte ∧
      (Piv.reader .plain).Forgotten (Piv.exchange .plain {be:=()} selectByte).2 selectByte ∧
      (Oath.reader oathPlain).Forgotten (Oath.exchange oathPlain {be:=()} selectByte).2 selectByte:=by
  obtain ⟨hpiv,hoath,hpivForgets,hoathForgets,-⟩:=applet_responses_read Piv.Backend.plain oathPlain
  refine ⟨hpiv _ _ _ _ (by rfl) (by rfl),hoath _ _ _ _ (by rfl) (by rfl) (by rfl),?_,?_⟩
  · exact (hpivForgets _ _ (by rintro a ⟨⟩; rfl)).mpr (.inr pivReplaces)
  · exact (hoathForgets _ _ (by rintro a ⟨⟩; rfl)).mpr (.inr oathReplaces)

/-- What is left of a SELECT is read after a logout. -/
theorem responses_left : ¬ ∀ (is : List (Bytes × ℕ)) (i : Bytes × ℕ),
    (∀ a, apduParse i.1=some a→Piv.isGetResponse a=false) →
    (Piv.reader .plain).Forgotten (Runs.run (fun s i=>(Piv.exchange .plain s i).2) {be:=()} is) i:=fun h=>
  absurd (h [selectByte] logout (by rintro a ⟨⟩; rfl) [Piv.anyGet]) (by decide +kernel)

end Selects

end CdcBadge.Scard
