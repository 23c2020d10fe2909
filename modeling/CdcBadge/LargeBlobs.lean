import CdcBadge.Fido2Frames
import CdcBadge.Requests

/-!
# Uploads of the large-blob array

A write session gathers the fragments of an upload in a buffer that a get request
reads the stored array into. The upload survives the get requests that leave what it
has gathered as it is.
-/

namespace CdcBadge.Fido2

open Handler Cbor

namespace LargeBlob

/-- The buffer is never shorter than the longest array, and a write in progress has more to come. -/
def Sound (b : LargeBlob) : Prop:=
  kLargeBlobMaxArray ≤ b.buf.length ∧ (b.active=true→b.received < b.expected ∧ b.expected ≤ kLargeBlobMaxArray)

/-- What a write in progress has gathered are these bytes. -/
def Gathers (b : LargeBlob) (data : Bytes) : Prop:=
  b.active=true→b.received=data.length ∧ b.buf.take b.received=data

def scribble (b : LargeBlob) (stored : Option Bytes) : LargeBlob:=
  {b with buf:=match stored with | some data=>overwrite data b.buf | none=>b.buf}

/-- Reading this array into the buffer leaves what a write in progress has gathered. -/
def Spared (b : LargeBlob) (stored : Option Bytes) : Prop:=
  b.active=true→(b.scribble stored).buf.take b.received=b.buf.take b.received

theorem sound_of_inactive {b : LargeBlob} (hbuf : kLargeBlobMaxArray ≤ b.buf.length) (hb : b.active=false) : b.Sound:=
  ⟨hbuf,fun h=>absurd h (by simp [hb])⟩

theorem gathers_of_inactive {b : LargeBlob} (hb : b.active=false) (data : Bytes) : b.Gathers data:=
  fun h=>absurd h (by simp [hb])

theorem Sound.scribble {b : LargeBlob} (h : b.Sound) (stored : Option Bytes) : (b.scribble stored).Sound:=by
  refine ⟨?_,h.2⟩
  have hbuf:=h.1
  cases stored with
  | none=>exact hbuf
  | some data=>simp [LargeBlob.scribble,overwrite]; omega

theorem Gathers.scribble {b : LargeBlob} {data : Bytes} {stored : Option Bytes} (h : b.Gathers data)
    (hspared : b.Spared stored) : (b.scribble stored).Gathers data:=
  fun hactive=>⟨(h hactive).1,(hspared hactive).trans (h hactive).2⟩

theorem begin_ok {n : ℕ} {b b₀ : LargeBlob} : begin n b=.ok b₀ ↔
    (kLargeBlobEmpty.length ≤ n ∧ n ≤ kLargeBlobMaxArray) ∧ b₀={b with expected:=n,received:=0,active:=true}:=by
  unfold begin
  split
  · simp; omega
  split
  · simp; omega
  · simp only [Except.ok.injEq]
    constructor
    · rintro rfl; exact ⟨by omega,rfl⟩
    · rintro ⟨-,rfl⟩; rfl

theorem begin_error {n : ℕ} {b : LargeBlob} {s : Status} (h : b.begin n=.error s) : s≠.invalidSeq:=by
  unfold begin at h
  split at h
  · simp at h; simp [← h]
  split at h
  · simp at h; simp [← h]
  · simp at h

theorem append_ok {offset : ℕ} {data : Bytes} {b b' : LargeBlob} : b.append offset data=.ok b' ↔
    (b.active=true ∧ offset=b.received ∧ offset+data.length ≤ b.expected) ∧
      b'={b with buf:=b.buf.take offset++overwrite data (b.buf.drop offset),received:=b.received+data.length}:=by
  unfold append
  split
  · simp_all
  split
  · simp_all
  split
  · simp; omega
  · simp only [Except.ok.injEq]
    constructor
    · rintro rfl; exact ⟨⟨by simp_all,by simp_all,by omega⟩,rfl⟩
    · rintro ⟨-,rfl⟩; rfl

theorem append_error {offset : ℕ} {data : Bytes} {b : LargeBlob} {s : Status} (hactive : b.active=true)
    (hoffset : offset=b.received) (h : b.append offset data=.error s) : s=.invalidLength:=by
  unfold append at h
  split at h
  · simp_all
  split at h
  · simp_all
  split at h
  · simpa using h.symm
  · simp at h

variable {b b' : LargeBlob} {offset n : ℕ} {data fragment : Bytes}

theorem Sound.received_le (h : b.Sound) (hactive : b.active=true) : b.received ≤ b.buf.length:=by
  have hbuf:=h.1
  have hlt:=h.2 hactive
  omega

theorem append_buf_length (h : b.Sound) (happend : b.append offset fragment=.ok b') :
    kLargeBlobMaxArray ≤ b'.buf.length:=by
  obtain ⟨⟨hactive,rfl,hlength⟩,rfl⟩:=append_ok.mp happend
  have hbuf:=h.1
  have hreceived:=h.received_le hactive
  simp [overwrite]
  omega

theorem append_gathers (hb : b.Gathers data) (happend : b.append offset fragment=.ok b') :
    b'.received=(data++fragment).length ∧ b'.buf.take b'.received=data++fragment:=by
  obtain ⟨⟨hactive,rfl,hlength⟩,rfl⟩:=append_ok.mp happend
  obtain ⟨hreceived,htake⟩:=hb hactive
  refine ⟨by simp [hreceived],?_⟩
  rw [htake,overwrite,← List.append_assoc]
  exact List.take_left' (by simp [hreceived])

end LargeBlob

/-- The parameters of a request, with what it meets. -/
structure Request where
  params : Bytes
  env : Env:={}

/-- The parameters that are read, if the request is to get or to set and names an offset. -/
def Request.parsed (r : Request) : Option LargeBlobsParams:=
  match readLargeBlobsParams {rest:=r.params} with
  | (.ok p,_)=>if p.hasGet != p.hasSet && p.hasOffset then some p else none
  | (.error _,_)=>none

def Badge.readsArray (w : Badge) (e : Env) : Option Bytes:=
  match e.nvs.headD .done with
  | .done=>some (w.nvs.largeblob.getD kLargeBlobEmpty)
  | .notOpened=>some kLargeBlobEmpty
  | .failed _=>none

section Steps

variable (cr : FidoCrypto)

def answer (w : Badge) (r : Request) : Except Halt Bytes:=(largeBlobs cr r.params (w.given r.env)).1

def after (w : Badge) (r : Request) : Badge:=(largeBlobs cr r.params (w.given r.env)).2

def ClientPin.acceptsMessage (pin : ClientPin) (message : Bytes) (protocol : UInt8) (param : Bytes)
    (requiredPerm : UInt8) : Bool:=
  pin.pinTokenValid && (requiredPerm == 0 || pin.permits requiredPerm) &&
    pinUvAuthParamMatches cr pin.pinToken message protocol param

/-- A fragment is authorised: no PIN is set, or the token in force and the parameter permit it. -/
def Authorised (pin : ClientPin) (e : Env) (p : LargeBlobsParams) : Prop:=
  e.fido2Available=true →
    pin.acceptsMessage cr (p.message cr) (UInt8.ofNat p.pinProto) p.pinAuth permLargeBlobWrite=true

/-- The session that a fragment is appended to: a new one, or the one in progress. -/
def LargeBlobsParams.Starts (p : LargeBlobsParams) (b b₀ : LargeBlob) : Prop:=
  (p.offset=0 ∧ p.hasLength=true ∧ b.begin (p.totalLen % 2^32)=.ok b₀) ∨
  (p.offset≠0 ∧ b.active=true ∧ p.offset=b.received ∧ b₀=b)

def Checksummed (blob : Bytes) : Prop:=
  (cr.sha256 (blob.take (blob.length-16))).toList.take 16=blob.drop (blob.length-16)

instance (blob : Bytes) : Decidable (Checksummed cr blob):=inferInstanceAs (Decidable (_=_))

/-- What comes of a set request, from the session, the stored data and the outcome of a write to NVS. -/
inductive SetRun (p : LargeBlobsParams) (b : LargeBlob) (nvs : Nvs) (o : NvsOutcome) : Except Halt Bytes × Badge→Prop
  | refused (s : Status) (t : Badge) (hblob : t.largeBlob=b) (hnvs : t.nvs=nvs) :
      SetRun p b nvs o (.error (.status s),t)
  /-- The write in progress is dropped. -/
  | dropped (s : Status) (t : Badge) (hseq : s≠.invalidSeq) (hactive : t.largeBlob.active=false)
      (hbuf : kLargeBlobMaxArray ≤ t.largeBlob.buf.length)
      (hnvs : t.nvs.largeblob=nvs.largeblob ∨ o=.failed true) : SetRun p b nvs o (.error (.status s),t)
  | taken (b₀ b' : LargeBlob) (t : Badge) (hstart : p.Starts b b₀) (happend : b₀.append p.offset p.set=.ok b')
      (hmore : b'.received≠b'.expected) (hblob : t.largeBlob=b') (hnvs : t.nvs=nvs) : SetRun p b nvs o (.ok [],t)
  /-- The last fragment: the array is stored. -/
  | stored (b₀ b' : LargeBlob) (t : Badge) (hstart : p.Starts b b₀) (happend : b₀.append p.offset p.set=.ok b')
      (hlast : b'.received=b'.expected) (hblob : t.largeBlob=b'.reset)
      (hnvs : t.nvs.largeblob=some (b'.buf.take b'.expected)) : SetRun p b nvs o (.ok [],t)

variable {cr : FidoCrypto} {p : LargeBlobsParams}

theorem verifyTokenOverMessage_apply (message : Bytes) (protocol : UInt8) (param : Bytes) (permission : UInt8)
    (w : Badge) :
    verifyTokenOverMessage cr message protocol param permission w =
      if w.clientPin.acceptsMessage cr message protocol param permission then (.ok (),w)
      else (.error (.status .pinAuthInvalid),w):=by
  unfold verifyTokenOverMessage ClientPin.acceptsMessage
  rw [bind_gets]
  rcases Bool.eq_false_or_eq_true w.clientPin.pinTokenValid with hvalid | hvalid
  · rw [bind_require_true hvalid]
    rcases Bool.eq_false_or_eq_true (permission == 0 || w.clientPin.permits permission) with hperm | hperm
    · rw [bind_require_true hperm,require_apply,hvalid,hperm]
      rfl
    · rw [bind_require_false hperm,hvalid,hperm]
      rfl
  · rw [bind_require_false hvalid,hvalid]
    rfl

theorem authorizeFragment_ok {w : Badge} (h : Authorised cr w.clientPin w.env p) :
    ∃ t, authorizeFragment cr p w=(.ok (),t) ∧ t.largeBlob=w.largeBlob ∧ t.nvs=w.nvs ∧ t.env=w.env:=by
  unfold authorizeFragment env
  rw [bind_gets]
  by_cases hpin : w.env.fido2Available=true
  · rw [Handler.when,if_pos hpin]
    refine ⟨_,bind_of_ok (bind_of_ok (t:=w) (a:=()) ?_),rfl,rfl,rfl⟩
    rw [recover,verifyTokenOverMessage_apply,if_pos (h hpin)]
  · rw [Handler.when,if_neg hpin]
    exact ⟨w,rfl,rfl,rfl,rfl⟩

theorem authorizeFragment_error {w : Badge} (h : ¬ Authorised cr w.clientPin w.env p) :
    ∃ t, authorizeFragment cr p w=(.error (.status .pinAuthInvalid),t) ∧ t.largeBlob=w.largeBlob.reset ∧
      t.nvs=w.nvs:=by
  obtain ⟨hpin,hrefused⟩:=Classical.not_imp.mp h
  unfold authorizeFragment env
  rw [bind_gets,Handler.when,if_pos hpin]
  refine ⟨_,bind_of_error (bind_of_error (t:={w with largeBlob:=w.largeBlob.reset}) ?_),rfl,rfl⟩
  rw [recover,verifyTokenOverMessage_apply,if_neg hrefused]
  rfl

section Nvs
variable (f : Nvs→Nvs) {w : Badge}

theorem nextNvs_apply (w : Badge) :
    nextNvs w=(.ok (w.env.nvs.headD .done),w.given {w.env with nvs:=w.env.nvs.tail}):=rfl

theorem nvsWrite_done (h : w.env.nvs.headD .done=.done) :
    nvsWrite f w=(.ok true,({w with nvs:=f w.nvs} : Badge).given {w.env with nvs:=w.env.nvs.tail}):=by
  unfold nvsWrite
  rw [bind_of_ok (nextNvs_apply w),h]
  rfl

theorem nvsWrite_notOpened (h : w.env.nvs.headD .done=.notOpened) :
    nvsWrite f w=(.ok false,w.given {w.env with nvs:=w.env.nvs.tail}):=by
  unfold nvsWrite
  rw [bind_of_ok (nextNvs_apply w),h]
  rfl

theorem nvsWrite_failed {applied : Bool} (h : w.env.nvs.headD .done=.failed applied) :
    nvsWrite f w=(.ok false,({w with nvs:=if applied then f w.nvs else w.nvs} : Badge).given
      {w.env with nvs:=w.env.nvs.tail}):=by
  unfold nvsWrite
  rw [bind_of_ok (nextNvs_apply w),h]
  cases applied <;> rfl

end Nvs

/-- What is stored is what the session gathered, if its checksum is right and the write is reported done. The
session ends in any case. -/
theorem storeLargeBlob_cases (cr : FidoCrypto) {w : Badge} {blob : Bytes} (hblob : blob=w.largeBlob.buf.take w.largeBlob.expected)
    (hlength : blob.length=w.largeBlob.expected) (hpos : 0 < blob.length) (hmax : blob.length ≤ kLargeBlobMaxArray) :
    ∃ t, t.largeBlob=w.largeBlob.reset ∧
      ((storeLargeBlob cr w=(.ok (),t) ∧ t.nvs.largeblob=some blob) ∨
       (¬ (Checksummed cr blob ∧ w.env.nvs.headD .done=.done) ∧
        ∃ s, s≠.invalidSeq ∧ storeLargeBlob cr w=(.error (.status s),t) ∧
          (t.nvs.largeblob=w.nvs.largeblob ∨ w.env.nvs.headD .done=.failed true))):=by
  unfold storeLargeBlob fido2StorageLargeblobSet
  rw [bind_gets,← hblob,← hlength]
  by_cases hsum : Checksummed cr blob
  · have hset : ¬ (blob.length=0 ∨ kLargeBlobMaxArray < blob.length):=by omega
    have hif : ¬ (cr.sha256 (blob.take (blob.length-16))).toList.take 16≠blob.drop (blob.length-16):=
      not_not.mpr hsum
    rw [if_neg hif,if_neg hset]
    cases hout : w.env.nvs.headD .done with
    | done=>
      rw [bind_of_ok (nvsWrite_done _ hout)]
      exact ⟨_,rfl,.inl ⟨rfl,rfl⟩⟩
    | notOpened=>
      rw [bind_of_ok (nvsWrite_notOpened _ hout)]
      exact ⟨_,rfl,.inr ⟨by simp,.other,by decide,rfl,.inl rfl⟩⟩
    | failed applied=>
      rw [bind_of_ok (nvsWrite_failed _ hout)]
      refine ⟨_,rfl,.inr ⟨by simp,.other,by decide,rfl,?_⟩⟩
      cases applied
      · exact .inl rfl
      · exact .inr rfl
  · have hif : (cr.sha256 (blob.take (blob.length-16))).toList.take 16≠blob.drop (blob.length-16):=hsum
    rw [if_pos hif]
    exact ⟨_,rfl,.inr ⟨fun h=>hsum h.1,.integrityFailure,by decide,rfl,.inl rfl⟩⟩

theorem sessionStep_ok {step : LargeBlob → Except Status LargeBlob} {w : Badge} {b : LargeBlob}
    (h : step w.largeBlob=.ok b) : sessionStep step w=(.ok (),{w with largeBlob:=b}):=by
  unfold sessionStep
  rw [bind_gets,h]
  rfl

theorem sessionStep_error {step : LargeBlob → Except Status LargeBlob} {w : Badge} {s : Status}
    (h : step w.largeBlob=.error s) :
    sessionStep step w=(.error (.status s),{w with largeBlob:=w.largeBlob.reset}):=by
  unfold sessionStep
  rw [bind_gets,h]
  rfl

theorem startFragment_ok {w : Badge} {b : LargeBlob} (h : p.Starts w.largeBlob b) :
    startFragment p w=(.ok (),{w with largeBlob:=b}):=by
  unfold startFragment
  rcases h with ⟨hoffset,hlength,hbegin⟩ | ⟨hoffset,hactive,hreceived,rfl⟩
  · rw [if_pos hoffset,bind_require_true hlength]
    exact sessionStep_ok hbegin
  · rw [if_neg hoffset,bind_gets,require_apply,if_pos (by simp [hactive,hreceived])]

theorem startFragment_error {w : Badge} (h : ∀ b, ¬ p.Starts w.largeBlob b) :
    ∃ s t, startFragment p w=(.error (.status s),t) ∧ t.nvs=w.nvs ∧
      (t.largeBlob=w.largeBlob ∨ (s≠.invalidSeq ∧ t.largeBlob=w.largeBlob.reset)):=by
  unfold startFragment
  by_cases hoffset : p.offset=0
  · rw [if_pos hoffset]
    rcases Bool.eq_false_or_eq_true p.hasLength with hlength | hlength
    · rw [bind_require_true hlength]
      cases hbegin : w.largeBlob.begin (p.totalLen % 2^32) with
      | ok b=>exact absurd (.inl ⟨hoffset,hlength,hbegin⟩) (h b)
      | error s=>
        rw [sessionStep_error hbegin]
        exact ⟨s,_,rfl,rfl,.inr ⟨LargeBlob.begin_error hbegin,rfl⟩⟩
    · rw [bind_require_false hlength]
      exact ⟨_,w,rfl,rfl,.inl rfl⟩
  · rw [if_neg hoffset,bind_gets,require_apply]
    split
    · next hnext=>
      obtain ⟨hactive,hreceived⟩:=Bool.and_eq_true_iff.mp hnext
      exact absurd (.inr ⟨hoffset,hactive,by simpa using hreceived,rfl⟩) (h w.largeBlob)
    · exact ⟨_,w,rfl,rfl,.inl rfl⟩

theorem LargeBlobsParams.Starts.next {b b₀ : LargeBlob} (h : p.Starts b b₀) (hb : b.Sound) :
    b₀.active=true ∧ p.offset=b₀.received ∧ b₀.received < b₀.expected ∧ b₀.expected ≤ kLargeBlobMaxArray ∧
      kLargeBlobMaxArray ≤ b₀.buf.length:=by
  rcases h with ⟨hoffset,-,hbegin⟩ | ⟨-,hactive,hreceived,rfl⟩
  · obtain ⟨⟨hlo,hhi⟩,rfl⟩:=LargeBlob.begin_ok.mp hbegin
    simp [kLargeBlobEmpty] at hlo
    exact ⟨rfl,hoffset,by simp; omega,hhi,hb.1⟩
  · exact ⟨hactive,hreceived,(hb.2 hactive).1,(hb.2 hactive).2,hb.1⟩

section Fragment
variable {w : Badge} {b₀ b : LargeBlob} (hstart : p.Starts w.largeBlob b₀) (hw : w.largeBlob.Sound)

include hstart hw

theorem starts_sound : b₀.Sound:=by
  obtain ⟨-,-,hlt,hmax,hbuf⟩:=hstart.next hw
  exact ⟨hbuf,fun _=>⟨hlt,hmax⟩⟩

theorem largeBlobsSet_started :
    largeBlobsSet cr p w=(authorizeFragment cr p >>= fun _=>sessionStep (LargeBlob.append p.offset p.set) >>= fun _=>
      gets (·.largeBlob) >>= fun b=>when b.complete (storeLargeBlob cr) >>= fun _=>pure [])
      {w with largeBlob:=b₀}:=by
  obtain ⟨-,hoffset,hlt,hmax,-⟩:=hstart.next hw
  have hmod : p.offset % 2^32=p.offset:=by simp [kLargeBlobMaxArray] at hmax; omega
  unfold largeBlobsSet
  rw [bind_of_ok (startFragment_ok hstart),hmod]

theorem largeBlobsSet_taken (hauth : Authorised cr w.clientPin w.env p) (happend : b₀.append p.offset p.set=.ok b)
    (hmore : b.received≠b.expected) :
    ∃ t, largeBlobsSet cr p w=(.ok [],t) ∧ t.largeBlob=b ∧ t.nvs=w.nvs:=by
  obtain ⟨t,hrun,hblob,hnvs,-⟩:=authorizeFragment_ok (w:={w with largeBlob:=b₀}) hauth
  have happend' : t.largeBlob.append p.offset p.set=.ok b:=by rw [hblob]; exact happend
  have hcomplete : b.complete=false:=by simp [LargeBlob.complete,hmore]
  refine ⟨{t with largeBlob:=b},?_,rfl,hnvs⟩
  rw [largeBlobsSet_started hstart hw,bind_of_ok hrun,bind_of_ok (sessionStep_ok happend'),bind_gets,hcomplete]
  rfl

theorem largeBlobsSet_last (hauth : Authorised cr w.clientPin w.env p) (happend : b₀.append p.offset p.set=.ok b)
    (hlast : b.received=b.expected) :
    ∃ t, t.largeBlob=b.reset ∧
      ((largeBlobsSet cr p w=(.ok [],t) ∧ t.nvs.largeblob=some (b.buf.take b.expected)) ∨
       (¬ (Checksummed cr (b.buf.take b.expected) ∧ w.env.nvs.headD .done=.done) ∧
        ∃ s, s≠.invalidSeq ∧ largeBlobsSet cr p w=(.error (.status s),t) ∧
          (t.nvs.largeblob=w.nvs.largeblob ∨ w.env.nvs.headD .done=.failed true))):=by
  obtain ⟨t,hrun,hblob,hnvs,henv⟩:=authorizeFragment_ok (w:={w with largeBlob:=b₀}) hauth
  have happend' : t.largeBlob.append p.offset p.set=.ok b:=by rw [hblob]; exact happend
  have hcomplete : b.complete=true:=by
    obtain ⟨⟨hactive,-⟩,hb⟩:=LargeBlob.append_ok.mp happend
    have hactive' : b.active=true:=by rw [hb]; exact hactive
    simp [LargeBlob.complete,hactive',hlast]
  have hbuf:=LargeBlob.append_buf_length (starts_sound hstart hw) happend
  have hexpected : 0 < b.expected ∧ b.expected ≤ kLargeBlobMaxArray:=by
    obtain ⟨-,-,hlt,hmax,-⟩:=hstart.next hw
    obtain ⟨-,rfl⟩:=LargeBlob.append_ok.mp happend
    exact ⟨by simp; omega,hmax⟩
  have hlength : (b.buf.take b.expected).length=b.expected:=by simp; omega
  have hset : largeBlobsSet cr p w =
      ((storeLargeBlob cr >>= fun _=>pure ()) >>= fun _=>pure []) {t with largeBlob:=b}:=by
    rw [largeBlobsSet_started hstart hw,bind_of_ok hrun,bind_of_ok (sessionStep_ok happend'),bind_gets,
      hcomplete]
    rfl
  obtain ⟨t',hblob',hstore⟩:=storeLargeBlob_cases cr (w:={t with largeBlob:=b}) rfl hlength
    (by rw [hlength]; exact hexpected.1) (by rw [hlength]; exact hexpected.2)
  refine ⟨t',hblob',?_⟩
  rw [hset]
  rcases hstore with ⟨hok,hstored⟩ | ⟨hbad,s,hseq,herror,hkept⟩
  · exact .inl ⟨bind_of_ok (bind_of_ok hok),hstored⟩
  · refine .inr ⟨henv ▸ hbad,s,hseq,bind_of_error (bind_of_error herror),?_⟩
    exact hkept.imp (fun h=>h.trans (congrArg Nvs.largeblob hnvs)) fun h=>henv ▸ h

end Fragment

theorem largeBlobsSet_run {w : Badge} (hw : w.largeBlob.Sound) :
    SetRun p w.largeBlob w.nvs (w.env.nvs.headD .done) (largeBlobsSet cr p w):=by
  by_cases hstart : ∃ b, p.Starts w.largeBlob b
  · obtain ⟨b₀,hstart⟩:=hstart
    obtain ⟨hactive,hoffset,-,-,hbuf⟩:=hstart.next hw
    by_cases hauth : Authorised cr w.clientPin w.env p
    · cases happend : b₀.append p.offset p.set with
      | ok b=>
        by_cases hlast : b.received=b.expected
        · obtain ⟨t,hblob,⟨hrun,hstored⟩ | ⟨-,s,hseq,hrun,hkept⟩⟩:=largeBlobsSet_last hstart hw hauth happend hlast
          · rw [hrun]
            exact .stored b₀ b t hstart happend hlast hblob hstored
          · rw [hrun]
            refine .dropped s t hseq (by rw [hblob]; rfl) ?_ hkept
            have hbuf':=LargeBlob.append_buf_length (starts_sound hstart hw) happend
            rw [hblob]
            exact hbuf'
        · obtain ⟨t,hrun,hblob,hnvs⟩:=largeBlobsSet_taken hstart hw hauth happend hlast
          rw [hrun]
          exact .taken b₀ b t hstart happend hlast hblob hnvs
      | error s=>
        obtain ⟨t,hrun,hblob,hnvs,-⟩:=authorizeFragment_ok (w:={w with largeBlob:=b₀}) hauth
        have happend' : t.largeBlob.append p.offset p.set=.error s:=by rw [hblob]; exact happend
        rw [largeBlobsSet_started hstart hw,bind_of_ok hrun,bind_of_error (sessionStep_error happend')]
        refine .dropped s _ ?_ rfl ?_ (.inl (congrArg Nvs.largeblob hnvs))
        · rw [LargeBlob.append_error hactive hoffset happend]
          decide
        · rw [hblob]
          exact hbuf
    · obtain ⟨t,hrun,hblob,hnvs⟩:=authorizeFragment_error (w:={w with largeBlob:=b₀}) hauth
      rw [largeBlobsSet_started hstart hw,bind_of_error hrun]
      refine .dropped _ t (by decide) (by rw [hblob]; rfl) ?_ (.inl (congrArg Nvs.largeblob hnvs))
      rw [hblob]
      exact hbuf
  · obtain ⟨s,t,hrun,hnvs,hblob⟩:=startFragment_error (not_exists.mp hstart)
    unfold largeBlobsSet
    rw [bind_of_error hrun]
    rcases hblob with hblob | ⟨hseq,hblob⟩
    · exact .refused s t hblob hnvs
    · exact .dropped s t hseq (by rw [hblob]; rfl) (by rw [hblob]; exact hw.1) (.inl (by rw [hnvs]))

theorem largeBlobsGet_run (w : Badge) :
    (largeBlobsGet p w).2.largeBlob=w.largeBlob.scribble (w.readsArray w.env) ∧ (largeBlobsGet p w).2.nvs=w.nvs:=by
  have hget : fido2StorageLargeblobGet w =
      (.ok (w.readsArray w.env),w.given {w.env with nvs:=w.env.nvs.tail}):=by
    unfold fido2StorageLargeblobGet Badge.readsArray
    rw [bind_of_ok (nextNvs_apply w)]
    cases w.env.nvs.headD .done <;> rfl
  unfold largeBlobsGet
  rw [bind_of_ok hget]
  cases hstored : w.readsArray w.env with
  | none=>exact ⟨rfl,rfl⟩
  | some stored=>
    have hquiet : Quiet (require (p.offset ≤ stored.length) .invalidLength >>= fun _=>env (·.responseSize) >>= fun size=>
        orFail .other (({size:=size} : Writer).map 1 |>.uint 0x01 |>.bytes ((stored.drop p.offset).take p.getLen)).output):=
      Quiet.bind (Quiet.require _ _) fun _=>Quiet.bind (Quiet.env _) fun _=>Quiet.orFail _ _
    have hblob:=(hquiet.fixes (v:=Badge.largeBlob) fun _ _=>rfl).apply
    have hnvs:=(hquiet.fixes (v:=Badge.nvs) fun _ _=>rfl).apply
    exact ⟨hblob _,hnvs _⟩

/-- A request is read, and answered where its parameters are not as they should be. -/
theorem largeBlobs_parsed (cr : FidoCrypto) (w : Badge) (r : Request) : ∃ reader,
    (∀ p, r.parsed=some p→largeBlobs cr r.params (w.given r.env) =
      (if p.hasSet then largeBlobsSet cr p else largeBlobsGet p) (w.given {r.env with reader:=reader})) ∧
    (r.parsed=none→∃ s, largeBlobs cr r.params (w.given r.env) =
      (.error (.status s),w.given {r.env with reader:=reader})):=by
  have hinit : initReader r.params (w.given r.env) =
      (.ok (),w.given {r.env with reader:={rest:=r.params}}):=rfl
  unfold Request.parsed largeBlobs
  rw [bind_of_ok hinit]
  cases hread : readLargeBlobsParams {rest:=r.params} with
  | mk result reader=>
    refine ⟨reader,?_⟩
    cases result with
    | error u=>
      have hcbor : cbor readLargeBlobsParams (w.given {r.env with reader:={rest:=r.params}}) =
          (.ok none,w.given {r.env with reader:=reader}):=by
        simp only [cbor,Badge.given_env,hread]
        rfl
      rw [bind_of_ok hcbor]
      exact ⟨fun p hp=>(Option.some_ne_none p hp.symm).elim,fun _=>⟨.invalidCbor,rfl⟩⟩
    | ok p=>
      have hcbor : cbor readLargeBlobsParams (w.given {r.env with reader:={rest:=r.params}}) =
          (.ok (some p),w.given {r.env with reader:=reader}):=by
        simp only [cbor,Badge.given_env,hread]
        rfl
      have hsome : orFail .invalidCbor (some p)=(pure p : Ctap LargeBlobsParams):=rfl
      rw [bind_of_ok hcbor,hsome,bind_pure_left]
      rcases Bool.eq_false_or_eq_true (p.hasGet != p.hasSet && p.hasOffset) with hvalid | hvalid
      · rw [bind_require_true hvalid]
        simp only [hvalid,if_true]
        refine ⟨fun p' hp=>?_,fun hp=>(Option.some_ne_none p hp).elim⟩
        obtain rfl:=Option.some.inj hp
        have hone : p.hasGet = !p.hasSet:=by
          cases hg : p.hasGet <;> cases hs : p.hasSet <;> simp_all
        rw [hone]
        cases p.hasSet <;> rfl
      · rw [bind_require_false hvalid]
        simp only [hvalid]
        exact ⟨fun p hp=>(Option.some_ne_none p hp.symm).elim,fun _=>⟨.invalidParameter,rfl⟩⟩

/-- A request does no harm to an upload: a get request reads an array that agrees with what is gathered, and a
write to NVS that is reported as failed left the stored array alone. -/
structure SparesUpload (w : Badge) (r : Request) : Prop where
  get : ∀ p, r.parsed=some p→p.hasSet=false→w.largeBlob.Spared (w.readsArray r.env)
  set : ∀ p, r.parsed=some p→p.hasSet=true → r.env.nvs.headD .done≠.failed true

/-- What a write in progress should have gathered, after a request and its answer: the fragments taken since
the one at offset 0. -/
def gathered (data : Bytes) (r : Request) : Except Halt Bytes→Bytes
  | .ok _=>match r.parsed with
    | some p=>if p.hasSet then if p.offset=0 then p.set else data++p.set else data
    | none=>data
  | .error _=>data

def afterAll (cr : FidoCrypto) : Badge × Bytes → List Request→Badge × Bytes
  | wd, []=>wd
  | (w,data), r::rs=>afterAll cr (after cr w r,gathered data r (answer cr w r)) rs

def SparesUploads (cr : FidoCrypto) : Badge → List Request→Prop
  | _, []=>True
  | w, r::rs=>SparesUpload w r ∧ SparesUploads cr (after cr w r) rs

def Fragment (cr : FidoCrypto) (array : Bytes) (w : Badge) (sent : ℕ) (data : Bytes) (r : Request) : Prop:=
  ∃ p, r.parsed=some p ∧ (p.hasSet=true ∧ p.offset=sent ∧ p.set=data ∧
    (sent=0→p.hasLength=true ∧ p.totalLen=array.length)) ∧ Authorised cr w.clientPin r.env p

/-- The requests upload the rest of an array in order, among get requests and requests that are answered
INVALID_SEQ. The array is stored with the last one, if NVS takes it. -/
inductive Uploads (cr : FidoCrypto) (array : Bytes) : Badge → ℕ → List Request→Prop
  | last {w : Badge} {sent : ℕ} {r : Request} (hfragment : Fragment cr array w sent (array.drop sent) r)
      (hdone : r.env.nvs.headD .done=.done) : Uploads cr array w sent [r]
  | fragment {w : Badge} {sent n : ℕ} {r : Request} {rs : List Request} (hlt : sent+n < array.length)
      (hfragment : Fragment cr array w sent ((array.drop sent).take n) r)
      (hrest : Uploads cr array (after cr w r) (sent+n) rs) : Uploads cr array w sent (r::rs)
  | get {w : Badge} {sent : ℕ} {r : Request} {rs : List Request} {p : LargeBlobsParams} (hp : r.parsed=some p)
      (hget : p.hasSet=false) (hrest : Uploads cr array (after cr w r) sent rs) : Uploads cr array w sent (r::rs)
  | outOfOrder {w : Badge} {sent : ℕ} {r : Request} {rs : List Request}
      (hseq : answer cr w r=.error (.status .invalidSeq)) (hrest : Uploads cr array (after cr w r) sent rs) :
      Uploads cr array w sent (r::rs)

/-- Uploads in a run are isolated from the other requests. -/
structure Isolated (cr : FidoCrypto) (w : Badge) (rs : List Request) : Prop where
  gathers : ∀ front back, rs=front++back →
    (afterAll cr (w,[]) front).1.largeBlob.Gathers (afterAll cr (w,[]) front).2
  error : ∀ front r back e, rs=front++r::back→answer cr (afterAll cr (w,[]) front).1 r=.error e →
    (after cr (afterAll cr (w,[]) front).1 r).nvs.largeblob=(afterAll cr (w,[]) front).1.nvs.largeblob
  uploads : ∀ array front back tail, rs=front++back++tail → Checksummed cr array →
    kLargeBlobEmpty.length ≤ array.length ∧ array.length ≤ kLargeBlobMaxArray →
    Uploads cr array (afterAll cr (w,[]) front).1 0 back →
    (afterAll cr (w,[]) (front++back)).1.nvs.largeblob=some array

theorem starts_gathers {b b₀ : LargeBlob} {data : Bytes} (hstart : p.Starts b b₀) (hb : b.Gathers data) :
    b₀.Gathers (if p.offset=0 then [] else data):=by
  rcases hstart with ⟨hoffset,-,hbegin⟩ | ⟨hoffset,-,-,rfl⟩
  · obtain ⟨-,rfl⟩:=LargeBlob.begin_ok.mp hbegin
    rw [if_pos hoffset]
    exact fun _=>⟨rfl,rfl⟩
  · rwa [if_neg hoffset]

section Run

variable {w : Badge} {data : Bytes} {r : Request} {rs : List Request}

theorem gathered_set {p : LargeBlobsParams} (hp : r.parsed=some p) (hset : p.hasSet=true) (b : Bytes) :
    gathered data r (.ok b)=(if p.offset=0 then [] else data)++p.set:=by
  simp only [gathered,hp,hset,if_true]
  split <;> rfl

/-- What comes of a request. -/
inductive Handled (w : Badge) (r : Request) : Except Halt Bytes × Badge→Prop
  | refused (s : Status) (t : Badge) (hblob : t.largeBlob=w.largeBlob) (hnvs : t.nvs=w.nvs) :
      Handled w r (.error (.status s),t)
  | get (p : LargeBlobsParams) (a : Except Halt Bytes) (t : Badge) (hp : r.parsed=some p) (hget : p.hasSet=false)
      (hblob : t.largeBlob=w.largeBlob.scribble (w.readsArray r.env)) (hnvs : t.nvs=w.nvs) : Handled w r (a,t)
  | set (p : LargeBlobsParams) (o : Except Halt Bytes × Badge) (hp : r.parsed=some p) (hset : p.hasSet=true)
      (h : SetRun p w.largeBlob w.nvs (r.env.nvs.headD .done) o) : Handled w r o

theorem handled (cr : FidoCrypto) (hw : w.largeBlob.Sound) (r : Request) :
    Handled w r (answer cr w r,after cr w r):=by
  change Handled w r (largeBlobs cr r.params (w.given r.env))
  obtain ⟨reader,hsome,hnone⟩:=largeBlobs_parsed cr w r
  cases hp : r.parsed with
  | none=>
    obtain ⟨s,hrun⟩:=hnone hp
    rw [hrun]
    exact .refused s _ rfl rfl
  | some p=>
    rw [hsome p hp]
    rcases Bool.eq_false_or_eq_true p.hasSet with hset | hset
    · rw [if_pos hset]
      exact .set p _ hp hset (largeBlobsSet_run (w:=w.given {r.env with reader:=reader}) hw)
    · rw [hset]
      obtain ⟨hblob,hnvs⟩:=largeBlobsGet_run (p:=p) (w.given {r.env with reader:=reader})
      exact .get p _ _ hp hset hblob hnvs

theorem after_sound (cr : FidoCrypto) (hw : w.largeBlob.Sound) (r : Request) : (after cr w r).largeBlob.Sound:=by
  have hhandled:=handled cr hw r
  revert hhandled
  generalize answer cr w r=a
  generalize after cr w r=t
  intro hhandled
  cases hhandled with
  | refused s t hblob hnvs=>exact hblob ▸ hw
  | get p a t hp hget hblob hnvs=>exact hblob ▸ hw.scribble _
  | set p o hp hset hrun=>
    cases hrun with
    | refused s t hblob hnvs=>exact hblob ▸ hw
    | dropped s t hseq hactive hbuf hnvs=>exact LargeBlob.sound_of_inactive hbuf hactive
    | taken b₀ b t hstart happend hmore hblob hnvs=>
      obtain ⟨-,-,-,hmax,-⟩:=hstart.next hw
      have hbuf:=LargeBlob.append_buf_length (starts_sound hstart hw) happend
      obtain ⟨⟨-,hoffset,hlength⟩,rfl⟩:=LargeBlob.append_ok.mp happend
      rw [hblob]
      exact ⟨hbuf,fun _=>⟨lt_of_le_of_ne (hoffset ▸ hlength) hmore,hmax⟩⟩
    | stored b₀ b t hstart happend hlast hblob hnvs=>
      have hbuf:=LargeBlob.append_buf_length (starts_sound hstart hw) happend
      rw [hblob]
      exact LargeBlob.sound_of_inactive hbuf rfl

theorem after_gathers (hw : w.largeBlob.Sound) (hdata : w.largeBlob.Gathers data) (h : SparesUpload w r) :
    (after cr w r).largeBlob.Gathers (gathered data r (answer cr w r)):=by
  have hhandled:=handled cr hw r
  revert hhandled
  generalize answer cr w r=a
  generalize after cr w r=t
  intro hhandled
  cases hhandled with
  | refused s t hblob hnvs=>exact hblob ▸ hdata
  | get p a t hp hget hblob hnvs=>
    have hsame : gathered data r a=data:=by
      cases a with
      | ok b=>simp [gathered,hp,hget]
      | error e=>rfl
    rw [hblob,hsame]
    exact hdata.scribble (h.get p hp hget)
  | set p o hp hset hrun=>
    cases hrun with
    | refused s t hblob hnvs=>exact hblob ▸ hdata
    | dropped s t hseq hactive hbuf hnvs=>exact LargeBlob.gathers_of_inactive hactive _
    | taken b₀ b t hstart happend hmore hblob hnvs=>
      rw [hblob,gathered_set hp hset]
      exact fun _=>LargeBlob.append_gathers (starts_gathers hstart hdata) happend
    | stored b₀ b t hstart happend hlast hblob hnvs=>
      rw [hblob]
      exact LargeBlob.gathers_of_inactive rfl _

theorem after_error (hw : w.largeBlob.Sound) (h : SparesUpload w r) {e : Halt} (he : answer cr w r=.error e) :
    (after cr w r).nvs.largeblob=w.nvs.largeblob:=by
  have hhandled:=handled cr hw r
  rw [he] at hhandled
  revert hhandled
  generalize after cr w r=t
  intro hhandled
  cases hhandled with
  | refused s t hblob hnvs=>rw [hnvs]
  | get p a t hp hget hblob hnvs=>rw [hnvs]
  | set p o hp hset hrun=>
    cases hrun with
    | refused s t hblob hnvs=>rw [hnvs]
    | dropped s t hseq hactive hbuf hnvs=>exact hnvs.resolve_right (h.set p hp hset)

/-- A get request, and one that is answered INVALID_SEQ, at most reads an array into the buffer. -/
theorem after_scribbled (cr : FidoCrypto) (hw : w.largeBlob.Sound) (h : SparesUpload w r)
    (hr : (∃ p, r.parsed=some p ∧ p.hasSet=false) ∨ answer cr w r=.error (.status .invalidSeq)) :
    ∃ stored, w.largeBlob.Spared stored ∧ (after cr w r).largeBlob=w.largeBlob.scribble stored:=by
  have hhandled:=handled cr hw r
  revert hr hhandled
  generalize answer cr w r=a
  generalize after cr w r=t
  intro hr hhandled
  cases hhandled with
  | refused s t hblob hnvs=>exact ⟨none,fun _=>rfl,hblob⟩
  | get p a t hp hget hblob hnvs=>exact ⟨_,h.get p hp hget,hblob⟩
  | set p o hp hset hrun=>
    have hseq : a=.error (.status .invalidSeq):=by
      refine hr.resolve_left ?_
      rintro ⟨p',hp',hget⟩
      obtain rfl:=Option.some.inj (hp'.symm.trans hp)
      exact absurd hset (by simp [hget])
    cases hrun with
    | refused s t hblob hnvs=>exact ⟨none,fun _=>rfl,hblob⟩
    | dropped s t hne hactive hbuf hnvs=>
      rw [Except.error.injEq,Halt.status.injEq] at hseq
      exact absurd hseq hne
    | taken b₀ b t hstart happend hmore hblob hnvs=>cases hseq
    | stored b₀ b t hstart happend hlast hblob hnvs=>cases hseq

/-- The session after the first bytes of an array: a write of the array is in progress, or none has begun. -/
def Sending (b : LargeBlob) (array : Bytes) (sent : ℕ) : Prop:=
  sent=0 ∨ (b.active=true ∧ b.expected=array.length ∧ b.received=sent ∧ b.buf.take sent=array.take sent)

theorem Sending.scribble {b : LargeBlob} {array : Bytes} {sent : ℕ} {stored : Option Bytes} (h : Sending b array sent)
    (hspared : b.Spared stored) : Sending (b.scribble stored) array sent:=by
  rcases h with hzero | ⟨hactive,hexpected,rfl,htake⟩
  · exact .inl hzero
  · exact .inr ⟨hactive,hexpected,rfl,(hspared hactive).trans htake⟩

variable {array : Bytes} {sent : ℕ}

/-- A fragment of the array at the next offset is appended to a session that has the bytes before it. -/
theorem fragment_appends {p : LargeBlobsParams} (hsending : Sending w.largeBlob array sent)
    (harray : kLargeBlobEmpty.length ≤ array.length ∧ array.length ≤ kLargeBlobMaxArray) (hoffset : p.offset=sent)
    (hfirst : sent=0→p.hasLength=true ∧ p.totalLen=array.length) (hfits : sent+p.set.length ≤ array.length) :
    ∃ b₀ b, p.Starts w.largeBlob b₀ ∧ b₀.append p.offset p.set=.ok b ∧ b.expected=array.length ∧ b.active=true ∧
      b.received=sent+p.set.length ∧ b.buf.take b.received=array.take sent++p.set:=by
  have hbegun : ∃ b₀, p.Starts w.largeBlob b₀ ∧ b₀.active=true ∧ b₀.expected=array.length ∧
      b₀.received=sent ∧ b₀.Gathers (array.take sent):=by
    by_cases hzero : sent=0
    · obtain ⟨hlength,htotal⟩:=hfirst hzero
      have hmod : p.totalLen % 2^32=array.length:=by simp [kLargeBlobMaxArray] at harray; omega
      refine ⟨{w.largeBlob with expected:=array.length,received:=0,active:=true},.inl ⟨by omega,hlength,?_⟩,
        rfl,rfl,hzero.symm,fun _=>⟨by simp [hzero],by simp [hzero]⟩⟩
      rw [hmod]
      exact LargeBlob.begin_ok.mpr ⟨harray,rfl⟩
    · obtain ⟨hactive,hexpected,hreceived,htake⟩:=hsending.resolve_left hzero
      refine ⟨w.largeBlob,.inr ⟨by omega,hactive,by omega,rfl⟩,hactive,hexpected,hreceived,fun _=>?_⟩
      rw [hreceived]
      exact ⟨by simp; omega,htake⟩
  obtain ⟨b₀,hstart,hactive,hexpected,hreceived,hgathers⟩:=hbegun
  have happend : b₀.append p.offset p.set=.ok _:=
    LargeBlob.append_ok.mpr ⟨⟨hactive,hoffset.trans hreceived.symm,by omega⟩,rfl⟩
  obtain ⟨hlength,htake⟩:=LargeBlob.append_gathers hgathers happend
  refine ⟨b₀,_,hstart,happend,hexpected,hactive,?_,htake⟩
  simp [hreceived]

theorem Sending.le (hw : w.largeBlob.Sound) (h : Sending w.largeBlob array sent) : sent ≤ array.length:=by
  rcases h with rfl | ⟨hactive,hexpected,rfl,-⟩
  · exact Nat.zero_le _
  · have hlt:=(hw.2 hactive).1
    omega

theorem last_stored (hw : w.largeBlob.Sound) (hsending : Sending w.largeBlob array sent)
    (harray : kLargeBlobEmpty.length ≤ array.length ∧ array.length ≤ kLargeBlobMaxArray) (hsum : Checksummed cr array)
    (hfragment : Fragment cr array w sent (array.drop sent) r) (hdone : r.env.nvs.headD .done=.done) :
    (after cr w r).nvs.largeblob=some array:=by
  obtain ⟨p,hp,⟨hset,hoffset,hdata,hfirst⟩,hauth⟩:=hfragment
  have hle:=hsending.le hw
  have hlength : p.set.length=array.length-sent:=by rw [hdata,List.length_drop]
  obtain ⟨b₀,b,hstart,happend,hexpected,-,hreceived,htake⟩:=
    fragment_appends hsending harray hoffset hfirst (by omega)
  have hblob : b.buf.take b.expected=array:=by
    rw [show b.expected=b.received by omega,htake,hdata,List.take_append_drop]
  obtain ⟨reader,hsome,-⟩:=largeBlobs_parsed cr w r
  unfold after
  rw [hsome p hp,if_pos hset]
  obtain ⟨t,-,⟨hrun,hstored⟩ | ⟨hbad,-⟩⟩:=
    largeBlobsSet_last (w:=w.given {r.env with reader:=reader}) hstart hw hauth happend (by omega)
  · rw [hrun,hstored,hblob]
  · rw [hblob] at hbad
    exact absurd ⟨hsum,hdone⟩ hbad

theorem fragment_sending {n : ℕ} (hw : w.largeBlob.Sound) (hsending : Sending w.largeBlob array sent)
    (harray : kLargeBlobEmpty.length ≤ array.length ∧ array.length ≤ kLargeBlobMaxArray) (hlt : sent+n < array.length)
    (hfragment : Fragment cr array w sent ((array.drop sent).take n) r) :
    Sending (after cr w r).largeBlob array (sent+n):=by
  obtain ⟨p,hp,⟨hset,hoffset,hdata,hfirst⟩,hauth⟩:=hfragment
  have hlength : p.set.length=n:=by
    rw [hdata]
    simp
    omega
  obtain ⟨b₀,b,hstart,happend,hexpected,hactive,hreceived,htake⟩:=
    fragment_appends hsending harray hoffset hfirst (by omega)
  obtain ⟨reader,hsome,-⟩:=largeBlobs_parsed cr w r
  unfold after
  rw [hsome p hp,if_pos hset]
  obtain ⟨t,hrun,hblob,-⟩:=
    largeBlobsSet_taken (w:=w.given {r.env with reader:=reader}) hstart hw hauth happend (by omega)
  rw [hrun]
  refine .inr ?_
  rw [hblob]
  rw [hlength] at hreceived
  rw [hreceived,hdata] at htake
  exact ⟨hactive,hexpected,hreceived,by rw [htake,List.take_add]⟩

theorem uploads_stored (hw : w.largeBlob.Sound) (hsending : Sending w.largeBlob array sent)
    (harray : kLargeBlobEmpty.length ≤ array.length ∧ array.length ≤ kLargeBlobMaxArray) (hsum : Checksummed cr array)
    (hrs : SparesUploads cr w rs) (h : Uploads cr array w sent rs) :
    (afterAll cr (w,data) rs).1.nvs.largeblob=some array:=by
  induction h generalizing data with
  | last hfragment hdone=>exact last_stored hw hsending harray hsum hfragment hdone
  | fragment hlt hfragment hrest ih=>
    exact ih (after_sound cr hw _) (fragment_sending hw hsending harray hlt hfragment) hrs.2
  | get hp hget hrest ih=>
    obtain ⟨stored,hspared,hblob⟩:=after_scribbled cr hw hrs.1 (.inl ⟨_,hp,hget⟩)
    exact ih (after_sound cr hw _) (hblob ▸ hsending.scribble hspared) hrs.2
  | outOfOrder hseq hrest ih=>
    obtain ⟨stored,hspared,hblob⟩:=after_scribbled cr hw hrs.1 (.inr hseq)
    exact ih (after_sound cr hw _) (hblob ▸ hsending.scribble hspared) hrs.2

theorem afterAll_append (wd : Badge × Bytes) (front back : List Request) :
    afterAll cr wd (front++back)=afterAll cr (afterAll cr wd front) back:=by
  induction front generalizing wd with
  | nil=>rfl
  | cons r rs ih=>exact ih _

theorem sparesUploads_append (data : Bytes) {front back : List Request} (h : SparesUploads cr w (front++back)) :
    SparesUploads cr w front ∧ SparesUploads cr (afterAll cr (w,data) front).1 back:=by
  induction front generalizing w data with
  | nil=>exact ⟨trivial,h⟩
  | cons r rs ih=>
    obtain ⟨hfront,hback⟩:=ih (gathered data r (answer cr w r)) h.2
    exact ⟨⟨h.1,hfront⟩,hback⟩

theorem afterAll_gathers (hw : w.largeBlob.Sound) (hdata : w.largeBlob.Gathers data) (hrs : SparesUploads cr w rs) :
    (afterAll cr (w,data) rs).1.largeBlob.Sound ∧
      (afterAll cr (w,data) rs).1.largeBlob.Gathers (afterAll cr (w,data) rs).2:=by
  induction rs generalizing w data with
  | nil=>exact ⟨hw,hdata⟩
  | cons r rs ih=>exact ih (after_sound cr hw r) (after_gathers hw hdata hrs.1) hrs.2

/-- In every run of harmless requests from power-up on, uploads are isolated from the other requests. -/
theorem largeBlobs_isolated (cr : FidoCrypto) (w : Badge) (rs : List Request) (hw : w.largeBlob={})
    (hrs : SparesUploads cr w rs) : Isolated cr w rs:=by
  have hsound : w.largeBlob.Sound:=by
    rw [hw]
    exact LargeBlob.sound_of_inactive (by simp) rfl
  have hgathers : w.largeBlob.Gathers []:=by
    rw [hw]
    exact LargeBlob.gathers_of_inactive rfl _
  constructor
  · rintro front back rfl
    exact (afterAll_gathers hsound hgathers (sparesUploads_append [] hrs).1).2
  · rintro front r back e rfl he
    obtain ⟨hfront,hr,-⟩:=sparesUploads_append [] hrs
    exact after_error (afterAll_gathers hsound hgathers hfront).1 hr he
  · rintro array front back tail rfl hsum harray hupload
    obtain ⟨hboth,-⟩:=sparesUploads_append [] hrs
    obtain ⟨hfront,hback⟩:=sparesUploads_append [] hboth
    obtain ⟨hsound',-⟩:=afterAll_gathers hsound hgathers hfront
    rw [afterAll_append]
    exact uploads_stored hsound' (.inl rfl) harray hsum hback hupload

end Run

end Steps

section Examples

def bareBadge : Badge:={chip:={ecc:=fun _=>none,rmem:=fun _=>none}}

def blobRequest (write : Writer→Writer) : Request:={params:=request write,env:={fido2Available:=false}}

def smallArray : Bytes:=[0x81,0x00]++((FidoCrypto.plain.sha256 [0x81,0x00]).toList.take 16)

def firstHalf : Request:=
  blobRequest fun w=>w.map 3 |>.uint 0x02 |>.bytes (smallArray.take 9) |>.uint 0x03 |>.uint 0 |>.uint 0x04 |>.uint 18

def secondHalf : Request:=blobRequest fun w=>w.map 2 |>.uint 0x02 |>.bytes (smallArray.drop 9) |>.uint 0x03 |>.uint 9

def getRequest : Request:=blobRequest fun w=>w.map 2 |>.uint 0x01 |>.uint 64 |>.uint 0x03 |>.uint 0

theorem firstHalf_parsed : firstHalf.parsed=some {
    hasSet:=true,hasOffset:=true,hasLength:=true,totalLen:=18,offset:=0
    set:=smallArray.take 9 }:=by decide +kernel

theorem secondHalf_parsed : secondHalf.parsed=some {
    hasSet:=true,hasOffset:=true,offset:=9
    set:=smallArray.drop 9 }:=by decide +kernel

theorem getRequest_parsed : getRequest.parsed=some {hasGet:=true,hasOffset:=true,getLen:=64}:=by
  decide +kernel

theorem firstHalf_fragment (w : Badge) :
    Fragment FidoCrypto.plain smallArray w 0 ((smallArray.drop 0).take 9) firstHalf:=
  ⟨_,firstHalf_parsed,⟨rfl,rfl,rfl,fun _=>⟨rfl,by decide⟩⟩,fun h=>absurd h (by decide)⟩

theorem secondHalf_fragment (w : Badge) : Fragment FidoCrypto.plain smallArray w 9 (smallArray.drop 9) secondHalf:=
  ⟨_,secondHalf_parsed,⟨rfl,rfl,rfl,fun h=>absurd h (by decide)⟩,fun h=>absurd h (by decide)⟩

theorem largeBlobs_isolated_upload :
    Isolated FidoCrypto.plain bareBadge [getRequest,firstHalf,secondHalf] ∧
      (afterAll FidoCrypto.plain (bareBadge,[]) [getRequest,firstHalf,secondHalf]).1.nvs.largeblob =
        some smallArray:=by
  have hfirst : ∀ w, SparesUpload w firstHalf:=fun w=>
    ⟨fun p hp hget=>absurd hget (by rw [← Option.some.inj (firstHalf_parsed.symm.trans hp)]; decide),
      fun _ _ _=>by decide⟩
  have hsecond : ∀ w, SparesUpload w secondHalf:=fun w=>
    ⟨fun p hp hget=>absurd hget (by rw [← Option.some.inj (secondHalf_parsed.symm.trans hp)]; decide),
      fun _ _ _=>by decide⟩
  have hget : SparesUpload bareBadge getRequest:=⟨fun _ _ _ h=>absurd h (by decide),fun _ _ _=>by decide⟩
  have hisolated:=largeBlobs_isolated FidoCrypto.plain bareBadge [getRequest,firstHalf,secondHalf] rfl
    ⟨hget,hfirst _,hsecond _,trivial⟩
  refine ⟨hisolated,hisolated.uploads smallArray [getRequest] [firstHalf,secondHalf] [] rfl (by decide) (by decide) ?_⟩
  exact .fragment (n:=9) (by decide) (firstHalf_fragment _) (.last (secondHalf_fragment _) rfl)

/-- A get request between the fragments of an upload: the array is not stored. -/
theorem largeBlobs_not_isolated :
    ¬ Isolated FidoCrypto.plain bareBadge [firstHalf,getRequest,secondHalf]:=by
  intro h
  have hstored:=h.uploads smallArray [] [firstHalf,getRequest,secondHalf] [] rfl (by decide) (by decide)
    (.fragment (n:=9) (by decide) (firstHalf_fragment _)
      (.get getRequest_parsed rfl (.last (secondHalf_fragment _) rfl)))
  exact absurd hstored (by decide +kernel)

end Examples

end CdcBadge.Fido2
