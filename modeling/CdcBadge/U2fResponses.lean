import CdcBadge.DerSignatures
import CdcBadge.U2f

/-!
# What U2F commands read and write

The bytes of the APDU that are read, and the bytes of the response that are written. A command that fails after it has begun
its response leaves more behind than the status word, and one failure returns its status word as a length.
-/

namespace CdcBadge.U2f

open Fido2 Cbor

def maxAttCertSize : ℕ:=1024

def u2fSwNoError : UInt16:=0x9000

def statusWords : List UInt16:=
  [u2fSwNoError,u2fSwConditionsNotSatisfied,u2fSwWrongData,u2fSwWrongLength,u2fSwClaNotSupported,u2fSwInsNotSupported,u2fSwWtf]

def readByte (apdu : Bytes) (i : ℕ) : Option UInt8:=apdu[i]?

def readBytes (apdu : Bytes) (i n : ℕ) : Option Bytes:=if i+n ≤ apdu.length then some ((apdu.drop i).take n) else none

def dataField (apdu : Bytes) : Option (ℕ × ℕ):=
  if 4 < apdu.length then
    match readByte apdu 4 with
    | none=>none
    | some lc=>
      if lc=0x00 ∧ 6 < apdu.length then
        match readByte apdu 5, readByte apdu 6 with
        | some hi, some lo=>
          let dataLen:=hi.toNat*256+lo.toNat
          some (7,if dataLen+7 > apdu.length then apdu.length-7 else dataLen)
        | _, _=>none
      else some (5,if lc.toNat+5 > apdu.length then apdu.length-5 else lc.toNat)
  else some (0,0)

/-- What an APDU asks for, or the status word that refuses it. -/
inductive Request
  | refused (sw : UInt16)
  | version
  | register (challenge application : ByteArr 32)
  | authenticate (p1 : UInt8) (challenge application : ByteArr 32) (keyHandle : Bytes)

def request (apdu : Bytes) : Option Request:=
  if apdu.length < 4 then some (.refused u2fSwWrongLength)
  else
    match readByte apdu 0, readByte apdu 1, readByte apdu 2, readByte apdu 3 with
    | some cla, some ins, some p1, some _=>
      if cla≠0x00 then some (.refused u2fSwClaNotSupported)
      else
        match dataField apdu with
        | none=>none
        | some (data,dataLen)=>
          if ins=0x03 then some .version
          else if ins=0x01 then
            if dataLen < 64 then some (.refused u2fSwWrongLength)
            else
              match readBytes apdu data 32, readBytes apdu (data+32) 32 with
              | some challenge, some application=>some (.register (fit 32 challenge) (fit 32 application))
              | _, _=>none
          else if ins=0x02 then
            if dataLen < 65 then some (.refused u2fSwWrongLength)
            else
              match readByte apdu (data+64) with
              | none=>none
              | some khLen=>
                if dataLen < 65+khLen.toNat then some (.refused u2fSwWrongLength)
                else
                  match readBytes apdu data 32, readBytes apdu (data+32) 32, readBytes apdu (data+65) khLen.toNat with
                  | some challenge, some application, some keyHandle=>
                    some (.authenticate p1 (fit 32 challenge) (fit 32 application) keyHandle)
                  | _, _, _=>none
          else some (.refused u2fSwInsNotSupported)
    | _, _, _, _=>none

/-- The length that is returned, and what was written from the start of the response on. -/
structure Answer where
  length : ℕ
  written : Bytes

/-- `u2f_response_sw` over what was already written. -/
def responseSw (response : Bytes) (sw : UInt16) : Answer:=
  {length:=2,written:=[(sw >>> 8).toUInt8,sw.toUInt8]++response.drop 2}

/-- What the rest of the badge answers during one command: presence, the random numbers of a dummy registration, the created
credential with its key, the certificate that is cached and the one after initialisation, and the signatures. The store
is seen through the slot of a key handle, the application hash of a slot, and the new sign count. -/
structure Outcomes where
  present : Bool
  credRandom : Option (ByteArr 64)
  pubkeyRandom : Option (ByteArr 64)
  create : Option (ByteArr 64 × ByteArr 64)
  attestCert : {cert : Bytes // cert.length ≤ maxAttCertSize}
  initAttestation : Option {cert : Bytes // cert.length ≤ maxAttCertSize}
  attestSign : Option (ByteArr 64)
  findSlot : Bytes→Option ℕ
  getCredential : ℕ→Option (ByteArr 32)
  signCount : ℕ→UInt32
  signRaw : Option (ByteArr 64)

section Commands

variable (responseMax : ℕ) (o : Outcomes)

def version : Answer:=
  if responseMax < (ascii "U2F_V2").length+2 then responseSw [] u2fSwWrongLength
  else
    let response:=ascii "U2F_V2"++[0x90,0x00]
    {length:=response.length,written:=response}

/-- A registration behind its head: the certificate, the signature and the status word. -/
def finishRegister (head cert : Bytes) : Answer:=
  if head.length+cert.length+u2fMaxEcSigSize+2 > responseMax then responseSw head u2fSwWrongLength
  else
    match o.attestSign with
    | none=>responseSw (head++cert) u2fSwWrongData
    | some rawSig=>
      let response:=head++cert++Signatures.Attest.signature rawSig++[0x90,0x00]
      {length:=response.length,written:=response}

def register (application : ByteArr 32) : Answer:=
  if isDummyApplication application then
    if !o.present then responseSw [] u2fSwConditionsNotSatisfied
    else
      match o.credRandom, o.pubkeyRandom with
      | some cred, some pubkey=>finishRegister responseMax o (registrationHead cred.toList pubkey) o.attestCert
      -- The status word is returned as the length.
      | _, _=>{length:=u2fSwWtf.toNat,written:=[]}
  else if !o.present then responseSw [] u2fSwConditionsNotSatisfied
  else
    match o.create with
    | none=>responseSw [] u2fSwWrongData
    | some (credId,pubkey)=>
      match o.initAttestation with
      | none=>responseSw (registrationHead credId.toList pubkey) u2fSwWrongData
      | some cert=>finishRegister responseMax o (registrationHead credId.toList pubkey) cert

/-- What is answered before a response is begun, or the count that the signature is made for. -/
def authenticated (p1 : UInt8) (application : ByteArr 32) (keyHandle : Bytes) : Except UInt16 UInt32:=
  if keyHandle.length≠u2fKeyHandleSize then .error u2fSwWrongData
  else
    match o.findSlot keyHandle with
    | none=>.error u2fSwWrongData
    | some slot=>
      match o.getCredential slot with
      | none=>.error u2fSwWrongData
      | some rpIdHash=>
        if rpIdHash≠application then .error u2fSwWrongData
        else if p1=u2fAuthCheckOnly then .error u2fSwConditionsNotSatisfied
        else if p1≠u2fAuthEnforce then .error u2fSwWrongData
        else if !o.present then .error u2fSwConditionsNotSatisfied
        else if o.signCount slot=0 then .error u2fSwConditionsNotSatisfied
        else .ok (o.signCount slot)

def authenticate (p1 : UInt8) (application : ByteArr 32) (keyHandle : Bytes) : Answer:=
  match authenticated o p1 application keyHandle with
  | .error sw=>responseSw [] sw
  | .ok counter=>
    let response:=[0x01]++be32 counter
    match o.signRaw with
    | none=>responseSw response u2fSwWrongData
    | some signature=>
      let response:=response++signature.toList++[0x90,0x00]
      {length:=response.length,written:=response}

def respond : Request → Answer
  | .refused sw=>responseSw [] sw
  | .version=>version responseMax
  | .register _ application=>register responseMax o application
  | .authenticate p1 _ application keyHandle=>authenticate o p1 application keyHandle

def processApdu (apdu : Bytes) : Option Answer:=(request apdu).map (respond responseMax o)

/-- The length is in bounds, so much is written, and a status word is at its end. -/
structure Answer.Fits (a : Answer) : Prop where
  two_le : 2 ≤ a.length
  le_max : a.length ≤ responseMax
  written : a.written.length=a.length
  word : ∃ body : Bytes, ∃ sw∈statusWords, a.written=body++[(sw >>> 8).toUInt8,sw.toUInt8]

/-- The APDU is read within its bounds, and the response is written within its own. -/
def Contained (apdu : Bytes) : Prop:=∃ a, processApdu responseMax o apdu=some a ∧ a.Fits responseMax

/-- A registration that is approved, and stored where it is a real one, comes to its end in the response. -/
def RegisterEnds (application : ByteArr 32) : Prop:=
  o.present=true →
    if isDummyApplication application then
      o.credRandom.isSome=true ∧ o.pubkeyRandom.isSome=true ∧ o.attestSign.isSome=true ∧
        131+o.attestCert.1.length+74 ≤ responseMax
    else
      o.create.isSome=true→∃ cert, o.initAttestation=some cert ∧ o.attestSign.isSome=true ∧ 131+cert.1.length+74 ≤ responseMax

def Ends : Request→Prop
  | .refused _ | .version=>True
  | .register _ application=>RegisterEnds responseMax o application
  | .authenticate p1 _ application keyHandle=>
    ∀ counter, authenticated o p1 application keyHandle=.ok counter → o.signRaw.isSome=true ∧ 71 ≤ responseMax

end Commands

section Bounds

variable {apdu : Bytes} {responseMax : ℕ} {o : Outcomes} {r : Request} {sw : UInt16} {response : Bytes}

theorem readByte_lt {i : ℕ} (h : i < apdu.length) : ∃ b, readByte apdu i=some b:=⟨_,List.getElem?_eq_getElem h⟩

theorem readBytes_le {i n : ℕ} (h : i+n ≤ apdu.length) : ∃ bs, readBytes apdu i n=some bs:=⟨_,if_pos h⟩

theorem dataField_le (apdu : Bytes) : ∃ data dataLen, dataField apdu=some (data,dataLen) ∧
    (dataLen=0 ∨ data+dataLen ≤ apdu.length):=by
  unfold dataField
  by_cases hfour : 4 < apdu.length
  · obtain ⟨lc,hlc⟩:=readByte_lt hfour
    rw [if_pos hfour,hlc]
    dsimp only
    by_cases hextended : lc=0x00 ∧ 6 < apdu.length
    · obtain ⟨hi,hhi⟩:=readByte_lt (show 5 < apdu.length by omega)
      obtain ⟨lo,hlo⟩:=readByte_lt hextended.2
      rw [if_pos hextended,hhi,hlo]
      refine ⟨_,_,rfl,.inr ?_⟩
      split_ifs <;> omega
    · rw [if_neg hextended]
      refine ⟨_,_,rfl,.inr ?_⟩
      split_ifs <;> omega
  · rw [if_neg hfour]
    exact ⟨0,0,rfl,.inl rfl⟩

theorem request_isSome (apdu : Bytes) : ∃ r, request apdu=some r:=by
  unfold request
  by_cases hfour : apdu.length < 4
  · rw [if_pos hfour]
    exact ⟨_,rfl⟩
  · obtain ⟨cla,hcla⟩:=readByte_lt (show 0 < apdu.length by omega)
    obtain ⟨ins,hins⟩:=readByte_lt (show 1 < apdu.length by omega)
    obtain ⟨p1,hp1⟩:=readByte_lt (show 2 < apdu.length by omega)
    obtain ⟨p2,hp2⟩:=readByte_lt (show 3 < apdu.length by omega)
    obtain ⟨data,dataLen,hfield,hle⟩:=dataField_le apdu
    rw [if_neg hfour,hcla,hins,hp1,hp2,hfield]
    dsimp only
    split_ifs with hclass hversion hregister hshort hauthenticate hshort'
    · exact ⟨_,rfl⟩
    · exact ⟨_,rfl⟩
    · exact ⟨_,rfl⟩
    · obtain ⟨challenge,hchallenge⟩:=readBytes_le (show data+32 ≤ apdu.length by omega)
      obtain ⟨application,happlication⟩:=readBytes_le (show data+32+32 ≤ apdu.length by omega)
      rw [hchallenge,happlication]
      exact ⟨_,rfl⟩
    · exact ⟨_,rfl⟩
    · obtain ⟨challenge,hchallenge⟩:=readBytes_le (show data+32 ≤ apdu.length by omega)
      obtain ⟨application,happlication⟩:=readBytes_le (show data+32+32 ≤ apdu.length by omega)
      obtain ⟨khLen,hkhLen⟩:=readByte_lt (show data+64 < apdu.length by omega)
      rw [hkhLen]
      dsimp only
      by_cases htruncated : dataLen < 65+khLen.toNat
      · rw [if_pos htruncated]
        exact ⟨_,rfl⟩
      · obtain ⟨keyHandle,hkeyHandle⟩:=readBytes_le (show data+65+khLen.toNat ≤ apdu.length by omega)
        rw [if_neg htruncated,hchallenge,happlication,hkeyHandle]
        exact ⟨_,rfl⟩
    · exact ⟨_,rfl⟩

/-- A status word of the protocol is the whole answer, unless more than two bytes were written before. -/
theorem responseSw_fits (hsw : sw∈statusWords) : (responseSw response sw).Fits responseMax ↔ 2 ≤ responseMax ∧ response.length ≤ 2:=by
  constructor
  · rintro ⟨-,hmax,hwritten,-⟩
    refine ⟨hmax,?_⟩
    simp only [responseSw,List.length_append,List.length_cons,List.length_nil,List.length_drop] at hwritten
    omega
  · rintro ⟨hmax,hshort⟩
    have hnothing : response.drop 2=[]:=List.drop_eq_nil_iff.mpr hshort
    refine ⟨le_rfl,hmax,?_,[],sw,hsw,?_⟩
    · simp [responseSw,hnothing]
    · simp [responseSw,hnothing]

theorem response_fits (response : Bytes) : ({length:=(response++[0x90,0x00]).length,written:=response++[0x90,0x00]} : Answer).Fits
    responseMax ↔ response.length+2 ≤ responseMax:=by
  have hlength : (response++[0x90,0x00]).length=response.length+2:=by simp
  constructor
  · rintro ⟨-,hmax,-,-⟩
    rw [← hlength]
    exact hmax
  · intro hmax
    rw [hlength]
    exact ⟨Nat.le_add_left 2 _,hmax,hlength,response,u2fSwNoError,List.mem_cons_self,rfl⟩

theorem version_fits : (version responseMax).Fits responseMax ↔ 2 ≤ responseMax:=by
  unfold version
  split_ifs with hshort
  · rw [responseSw_fits (by decide)]
    exact and_iff_left (Nat.zero_le _)
  · rw [response_fits]
    have hlength : (ascii "U2F_V2").length=6:=by decide
    rw [hlength] at hshort ⊢
    omega

theorem registrationHead_length (keyHandle pubkey : ByteArr 64) : (registrationHead keyHandle.toList pubkey).length=131:=by
  simp [registrationHead]

theorem finishRegister_fits (keyHandle pubkey : ByteArr 64) (cert : Bytes) :
    (finishRegister responseMax o (registrationHead keyHandle.toList pubkey) cert).Fits responseMax ↔
      o.attestSign.isSome=true ∧ 131+cert.length+74 ≤ responseMax:=by
  have hhead:=registrationHead_length keyHandle pubkey
  unfold finishRegister u2fMaxEcSigSize
  rw [hhead]
  by_cases hroom : 131+cert.length+72+2 > responseMax
  · rw [if_pos hroom,responseSw_fits (by decide),hhead]
    omega
  · rw [if_neg hroom]
    cases o.attestSign with
    | none=>
      dsimp only
      rw [responseSw_fits (by decide),List.length_append,hhead,Option.isSome_none]
      simp
      omega
    | some rawSig=>
      dsimp only
      have hsig:=Signatures.der_length rawSig
      rw [response_fits,Signatures.attest_signature,List.length_append,List.length_append,hhead,Option.isSome_some]
      constructor
      · exact fun _=>⟨rfl,by omega⟩
      · exact fun _=>by omega

theorem register_fits (application : ByteArr 32) : (register responseMax o application).Fits responseMax ↔
    2 ≤ responseMax ∧ RegisterEnds responseMax o application:=by
  unfold register RegisterEnds
  by_cases hdummy : isDummyApplication application=true
  · rw [if_pos hdummy,if_pos hdummy]
    cases hpresent : o.present with
    | false=>
      rw [if_pos (by simp),responseSw_fits (by decide)]
      simp
    | true=>
      have hnothing : ∀ length, ¬({length:=length,written:=[]} : Answer).Fits responseMax:=by
        rintro length ⟨htwo,-,hwritten,-⟩
        rw [← hwritten] at htwo
        simp at htwo
      rw [if_neg (by simp)]
      cases o.credRandom with
      | none=>simpa using hnothing _
      | some cred=>
        cases o.pubkeyRandom with
        | none=>simpa using hnothing _
        | some pubkey=>
          dsimp only
          rw [finishRegister_fits]
          simp
          omega
  · rw [if_neg hdummy,if_neg hdummy]
    cases hpresent : o.present with
    | false=>
      rw [if_pos (by simp),responseSw_fits (by decide)]
      simp
    | true=>
      rw [if_neg (by simp)]
      cases o.create with
      | none=>
        dsimp only
        rw [responseSw_fits (by decide)]
        simp
      | some created=>
        obtain ⟨credId,pubkey⟩:=created
        dsimp only
        cases o.initAttestation with
        | none=>
          dsimp only
          rw [responseSw_fits (by decide),registrationHead_length]
          simp
        | some cert=>
          dsimp only
          rw [finishRegister_fits]
          simp
          omega

theorem authenticated_error {p1 : UInt8} {application : ByteArr 32} {keyHandle : Bytes}
    (h : authenticated o p1 application keyHandle=.error sw) : sw∈statusWords:=by
  unfold authenticated at h
  by_cases hsize : keyHandle.length≠u2fKeyHandleSize
  · rw [if_pos hsize] at h
    cases h
    decide
  rw [if_neg hsize] at h
  cases hslot : o.findSlot keyHandle with
  | none=>
    rw [hslot] at h
    cases h
    decide
  | some slot=>
    rw [hslot] at h
    dsimp only at h
    cases hcred : o.getCredential slot with
    | none=>
      rw [hcred] at h
      cases h
      decide
    | some rpIdHash=>
      rw [hcred] at h
      dsimp only at h
      split_ifs at h <;> cases h <;> decide

theorem authenticate_fits (p1 : UInt8) (application : ByteArr 32) (keyHandle : Bytes) :
    (authenticate o p1 application keyHandle).Fits responseMax ↔ 2 ≤ responseMax ∧
      ∀ counter, authenticated o p1 application keyHandle=.ok counter → o.signRaw.isSome=true ∧ 71 ≤ responseMax:=by
  unfold authenticate
  cases hresult : authenticated o p1 application keyHandle with
  | error sw=>
    dsimp only
    rw [responseSw_fits (authenticated_error hresult)]
    simp
  | ok counter=>
    have hbegun : ([0x01]++be32 counter).length=5:=rfl
    dsimp only
    cases o.signRaw with
    | none=>
      dsimp only
      rw [responseSw_fits (by decide),hbegun]
      simp
    | some signature=>
      dsimp only
      rw [response_fits,List.length_append,hbegun,List.Vector.toList_length]
      constructor
      · exact fun hmax=>⟨by omega,fun _ _=>⟨rfl,by omega⟩⟩
      · rintro ⟨-,hall⟩
        have hroom:=(hall counter rfl).2
        omega

theorem request_refused (h : request apdu=some (.refused sw)) : sw∈statusWords:=by
  unfold request at h
  by_cases hfour : apdu.length < 4
  · rw [if_pos hfour] at h
    cases h
    decide
  rw [if_neg hfour] at h
  split at h
  · rename_i cla ins p1 p2 hcla hins hp1 hp2
    by_cases hclass : cla≠0x00
    · rw [if_pos hclass] at h
      cases h
      decide
    rw [if_neg hclass] at h
    cases hfield : dataField apdu with
    | none=>
      rw [hfield] at h
      cases h
    | some field=>
      obtain ⟨data,dataLen⟩:=field
      rw [hfield] at h
      dsimp only at h
      by_cases hversion : ins=0x03
      · rw [if_pos hversion] at h
        cases h
      rw [if_neg hversion] at h
      by_cases hregister : ins=0x01
      · rw [if_pos hregister] at h
        by_cases hshort : dataLen < 64
        · rw [if_pos hshort] at h
          cases h
          decide
        · rw [if_neg hshort] at h
          split at h <;> cases h
      rw [if_neg hregister] at h
      by_cases hauthenticate : ins=0x02
      · rw [if_pos hauthenticate] at h
        by_cases hshort : dataLen < 65
        · rw [if_pos hshort] at h
          cases h
          decide
        · rw [if_neg hshort] at h
          cases hkhLen : readByte apdu (data+64) with
          | none=>
            rw [hkhLen] at h
            cases h
          | some khLen=>
            rw [hkhLen] at h
            dsimp only at h
            by_cases htruncated : dataLen < 65+khLen.toNat
            · rw [if_pos htruncated] at h
              cases h
              decide
            · rw [if_neg htruncated] at h
              split at h <;> cases h
      · rw [if_neg hauthenticate] at h
        cases h
        decide
  · cases h

/-- A command reads and writes within its bounds, unless it fails after it has begun the response or there is no room for that. -/
theorem contained_iff (responseMax : ℕ) (o : Outcomes) (apdu : Bytes) : Contained responseMax o apdu ↔
    2 ≤ responseMax ∧ ∀ r, request apdu=some r → Ends responseMax o r:=by
  obtain ⟨r,hr⟩:=request_isSome apdu
  have hcontained : Contained responseMax o apdu ↔ (respond responseMax o r).Fits responseMax:=by
    unfold Contained processApdu
    rw [hr]
    simp
  rw [hcontained,hr]
  simp only [Option.some.injEq,forall_eq']
  cases r with
  | refused sw=>
    rw [respond,responseSw_fits (request_refused hr)]
    simp [Ends]
  | version=>
    rw [respond,version_fits]
    simp [Ends]
  | register challenge application=>exact register_fits application
  | authenticate p1 challenge application keyHandle=>exact authenticate_fits p1 application keyHandle

end Bounds

/-- A dummy registration that is approved while the secure element gives no random bytes. -/
def noRandom : Outcomes where
  present:=true
  credRandom:=none
  pubkeyRandom:=none
  create:=none
  attestCert:=⟨[],Nat.zero_le _⟩
  initAttestation:=none
  attestSign:=none
  findSlot:=fun _=>none
  getCredential:=fun _=>none
  signCount:=fun _=>0
  signRaw:=none

/-- It returns a length of 0x6F00 for a buffer of 512 bytes. -/
theorem not_contained_noRandom : ¬∀ o apdu, Contained 512 o apdu:=by
  intro h
  obtain ⟨a,ha,hfits⟩:=h noRandom ([0x00,0x01,0x03,0x00,0x40]++List.replicate 64 0x41)
  have hlength : (processApdu 512 noRandom ([0x00,0x01,0x03,0x00,0x40]++List.replicate 64 0x41)).map Answer.length =
      some 0x6F00:=by decide +kernel
  rw [ha,Option.map_some] at hlength
  have hmax:=hfits.le_max
  rw [Option.some.inj hlength] at hmax
  omega

end CdcBadge.U2f
