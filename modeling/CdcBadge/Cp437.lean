import CdcBadge.Bytes

/-!
# The CP437 codec

Text of the display font to UTF-8 and back. The decoder takes a lead byte with as many
continuation bytes as it announces and drops everything else; it does not ask for the
shortest form.
-/

namespace CdcBadge.Cp437

/-- The code points of the bytes from `0x80` on. -/
def kHigh : List ℕ:=[
  0x00C7,0x00FC,0x00E9,0x00E2,0x00E4,0x00E0,0x00E5,0x00E7,0x00EA,0x00EB,0x00E8,0x00EF,0x00EE,0x00EC,0x00C4,0x00C5,
  0x00C9,0x00E6,0x00C6,0x00F4,0x00F6,0x00F2,0x00FB,0x00F9,0x00FF,0x00D6,0x00DC,0x00A2,0x00A3,0x00A5,0x20A7,0x0192,
  0x00E1,0x00ED,0x00F3,0x00FA,0x00F1,0x00D1,0x00AA,0x00BA,0x00BF,0x2310,0x00AC,0x00BD,0x00BC,0x00A1,0x00AB,0x00BB,
  0x2591,0x2592,0x2593,0x2502,0x2524,0x2561,0x2562,0x2556,0x2555,0x2563,0x2551,0x2557,0x255D,0x255C,0x255B,0x2510,
  0x2514,0x2534,0x252C,0x251C,0x2500,0x253C,0x255E,0x255F,0x255A,0x2554,0x2569,0x2566,0x2560,0x2550,0x256C,0x2567,
  0x2568,0x2564,0x2565,0x2559,0x2558,0x2552,0x2553,0x256B,0x256A,0x2518,0x250C,0x2588,0x2584,0x258C,0x2590,0x2580,
  0x03B1,0x00DF,0x0393,0x03C0,0x03A3,0x03C3,0x00B5,0x03C4,0x03A6,0x0398,0x03A9,0x03B4,0x221E,0x03C6,0x03B5,0x2229,
  0x2261,0x00B1,0x2265,0x2264,0x2320,0x2321,0x00F7,0x2248,0x00B0,0x2219,0x00B7,0x221A,0x207F,0x00B2,0x25A0,0x00A0]

/-- The glyphs that CP437 only carries outside the upper half. -/
def aliases : List (ℕ × UInt8):=[
  (0x00A6,0x7C),(0x00E3,0x83),(0x263A,0x01),(0x263B,0x02),(0x2665,0x03),(0x2666,0x04),(0x2663,0x05),(0x2660,0x06),
  (0x2022,0x07),(0x25D8,0x08),(0x25CB,0x09),(0x2642,0x0B),(0x2640,0x0C),(0x266B,0x0E),(0x263C,0x0F),(0x25BA,0x10),
  (0x25C4,0x11),(0x2195,0x12),(0x203C,0x13),(0x00B6,0x14),(0x00A7,0x15),(0x25AC,0x16),(0x21A8,0x17),(0x2191,0x18),
  (0x2193,0x19),(0x2192,0x1A),(0x2190,0x1B),(0x221F,0x1C),(0x2194,0x1D),(0x25B2,0x1E),(0x25BC,0x1F)]

def toUnicode (b : UInt8) : ℕ:=if b < 0x80 then b.toNat else kHigh.getD (b.toNat-0x80) 0

def fromUnicode (cp : ℕ) : UInt8:=
  if cp < 0x80 then UInt8.ofNat cp
  else match aliases.lookup cp with
    | some b=>b
    | none=>if kHigh.idxOf cp < 128 then UInt8.ofNat (0x80+kHigh.idxOf cp) else 0

def mapped (cp : ℕ) : Bytes:=if fromUnicode cp=0 then [] else [fromUnicode cp]

/-- The loop over `cont` continuation bytes, with the code point unless one is missing. `none` reads past the memory
that `r` points into; the shift and the or are of disjoint bits. -/
def continuation : ℕ → ℕ→Bytes→Option (Option ℕ × Bytes)
  | 0, cp, r=>some (some cp,r)
  | _+1, _, []=>none
  | n+1, cp, b::r=>
    if b &&& 0xC0≠0x80 then some (none,b::r) else continuation n (cp*64+(b &&& 0x3F).toNat) r

/-- One turn of the loop of `fromUtf8`: what it pushes, and where `r` is left. -/
def turn (c : UInt8) (r : Bytes) : Option (Bytes × Bytes):=
  let sequence (cont : ℕ) (cp : UInt8):=(continuation cont cp.toNat r).map fun x=>((x.1.map mapped).getD [],x.2)
  if c &&& 0x80=0 then some ([c],r)
  else if c &&& 0xE0=0xC0 then sequence 1 (c &&& 0x1F)
  else if c &&& 0xF0=0xE0 then sequence 2 (c &&& 0x0F)
  else if c &&& 0xF8=0xF0 then sequence 3 (c &&& 0x07)
  else some ([],r)

def scan : ℕ→Bytes→Option Bytes
  | 0, _=>none
  | _+1, []=>none
  | fuel+1, c::r=>if c=0 then some [] else (turn c r).bind fun x=>(scan fuel x.2).map (x.1++·)

/-- `s` is the memory from the pointer on, `none` the null pointer. -/
def fromUtf8 : Option Bytes→Option Bytes
  | none=>some []
  | some s=>scan s.length s

def encode (cp : ℕ) : Bytes:=
  if cp < 0x80 then [UInt8.ofNat cp]
  else if cp < 0x800 then [UInt8.ofNat (0xC0+cp/64),UInt8.ofNat (0x80+cp % 64)]
  else [UInt8.ofNat (0xE0+cp/4096),UInt8.ofNat (0x80+cp/64 % 64),UInt8.ofNat (0x80+cp % 64)]

def toUtf8 : Option Bytes→Option Bytes
  | none=>some []
  | some []=>none
  | some (b::r)=>if b=0 then some [] else (toUtf8 (some r)).map (encode (toUnicode b)++·)

/-- A C string: what stands before the NUL. -/
abbrev CString:={s : Bytes // (0 : UInt8)∉s}

/-- How many continuation bytes a lead byte announces, and the bits it carries itself. -/
def lead (c : UInt8) : Option (ℕ × ℕ):=
  if c < 0x80 then some (0,c.toNat)
  else if c < 0xC0 then none
  else if c < 0xE0 then some (1,c.toNat-0xC0)
  else if c < 0xF0 then some (2,c.toNat-0xE0)
  else if c < 0xF8 then some (3,c.toNat-0xF0)
  else none

def IsCont (b : UInt8) : Prop:=0x80 ≤ b ∧ b < 0xC0

instance : DecidablePred IsCont:=fun _=>inferInstanceAs (Decidable (_ ∧ _))

def Conts (t : Bytes) : Bool:=t.all fun b=>decide (IsCont b)

/-- The sequence at the start of `s`: its number of continuation bytes and the code point it spells. -/
def sequence : Bytes→Option (ℕ × ℕ)
  | []=>none
  | c::r=>(lead c).bind fun l=>if (r.take l.1).length=l.1 ∧ Conts (r.take l.1)=true
      then some (l.1,(r.take l.1).foldl (fun cp b=>cp*64+(b.toNat-0x80)) l.2) else none

/-- In shortest form, and no surrogate nor beyond the last code point. -/
def WellFormed (n cp : ℕ) : Prop:=
  (n=0 ∨ n=1 ∧ 0x80 ≤ cp ∨ n=2 ∧ 0x800 ≤ cp ∨ n=3 ∧ 0x10000 ≤ cp) ∧ (cp < 0xD800 ∨ 0xE000 ≤ cp ∧ cp ≤ 0x10FFFF)

instance (n cp : ℕ) : Decidable (WellFormed n cp):=inferInstanceAs (Decidable (_ ∧ _))

/-- What `f` makes of the sequences of `s` in order, wherever one starts. -/
def pieces (f : ℕ × ℕ→Bytes) : Bytes→Bytes
  | []=>[]
  | c::r=>((sequence (c::r)).map f).getD []++pieces f r

def decoded : Bytes→Bytes:=pieces fun x=>mapped x.2

def decodedStrict : Bytes→Bytes:=pieces fun x=>if WellFormed x.1 x.2 then mapped x.2 else []

variable {s r u rest junk : Bytes} {c : UInt8} {f g : ℕ × ℕ→Bytes} {n cp : ℕ}

/-- The tests of the lead byte, and the bits each keeps. -/
def tests (c : UInt8) : Option (ℕ × ℕ):=
  if c &&& 0x80=0 then some (0,c.toNat)
  else if c &&& 0xE0=0xC0 then some (1,(c &&& 0x1F).toNat)
  else if c &&& 0xF0=0xE0 then some (2,(c &&& 0x0F).toNat)
  else if c &&& 0xF8=0xF0 then some (3,(c &&& 0x07).toNat)
  else none

theorem tests_eq (c : UInt8) : tests c=lead c:=by
  revert c
  exact forall_byte (by decide +kernel)

theorem mapped_ascii (hc : c < 0x80) (hne : c≠0) : mapped c.toNat=[c]:=by
  have hbyte : fromUnicode c.toNat=c:=by
    exact (if_pos (UInt8.lt_iff_toNat_lt.mp hc)).trans UInt8.ofNat_toNat
  rw [mapped,hbyte,if_neg hne]

theorem turn_eq (hne : c≠0) : turn c r=match lead c with
    | none=>some ([],r)
    | some l=>(continuation l.1 l.2 r).map fun x=>((x.1.map mapped).getD [],x.2):=by
  rw [← tests_eq]
  unfold turn tests
  by_cases hascii : c &&& 0x80=0
  · rw [if_pos hascii,if_pos hascii]
    have hlt : c < 0x80:=by
      revert hascii
      exact forall_byte (P:=fun c=>c &&& 0x80=0 → c < 0x80) (by decide +kernel) c
    simp [continuation,mapped_ascii hlt hne]
  · rw [if_neg hascii,if_neg hascii]
    split_ifs <;> rfl

theorem conts_iff {t : Bytes} : Conts t=true ↔ ∀ b∈t, IsCont b:=by simp [Conts]

theorem cont_iff (b : UInt8) : b &&& 0xC0=0x80 ↔ IsCont b:=by
  revert b
  exact forall_byte (by decide +kernel)

theorem cont_bits {b : UInt8} (h : IsCont b) : (b &&& 0x3F).toNat=b.toNat-0x80 ∧ lead b=none:=by
  revert h
  exact forall_byte (P:=fun b=>IsCont b→(b &&& 0x3F).toNat=b.toNat-0x80 ∧ lead b=none) (by decide +kernel) b

theorem pieces_cont {b : UInt8} (h : IsCont b) : pieces f (b::r)=pieces f r:=by
  rw [pieces,sequence,(cont_bits h).2]
  rfl

/-- The loop stops before the NUL, and no sequence starts in what it has passed. -/
theorem continuation_eq (junk : Bytes) (n cp : ℕ) (r : Bytes) : ∃ r', r'.length ≤ r.length ∧ (∀ b∈r', b∈r) ∧ (∀ f, pieces f r=pieces f r') ∧
    continuation n cp (r++0::junk)=some (if (r.take n).length=n ∧ Conts (r.take n)=true
      then some ((r.take n).foldl (fun cp b=>cp*64+(b.toNat-0x80)) cp) else none,r'++0::junk):=by
  induction n generalizing cp r with
  | zero=>exact ⟨r,le_rfl,fun _ h=>h,fun _=>rfl,by simp [continuation,Conts]⟩
  | succ n ih=>
    cases r with
    | nil=>
      refine ⟨[],le_rfl,fun _ h=>h,fun _=>rfl,?_⟩
      rw [List.nil_append,continuation,if_pos (by decide),if_neg fun h=>absurd h.1 (by simp)]
    | cons b r=>
      by_cases hb : IsCont b
      · obtain ⟨r',hlen,hmem,hpieces,hrun⟩:=ih (cp*64+(b &&& 0x3F).toNat) r
        refine ⟨r',Nat.le_succ_of_le hlen,fun x hx=>List.mem_cons_of_mem b (hmem x hx),fun f=>?_,?_⟩
        · rw [pieces_cont hb,hpieces]
        · rw [List.cons_append,continuation,if_neg (not_not.mpr ((cont_iff b).mpr hb)),hrun]
          have hiff : ((r.take n).length=n ∧ Conts (r.take n)=true) ↔
              ((b::r.take n).length=n+1 ∧ Conts (b::r.take n)=true):=by
            rw [List.length_cons,conts_iff,conts_iff,List.forall_mem_cons]
            exact ⟨fun h=>⟨congrArg (·+1) h.1,hb,h.2⟩,fun h=>⟨Nat.succ.inj h.1,h.2.2⟩⟩
          rw [if_congr hiff rfl rfl,List.take_succ_cons,List.foldl_cons,(cont_bits hb).1]
      · refine ⟨b::r,le_rfl,fun _ h=>h,fun _=>rfl,?_⟩
        rw [List.cons_append,continuation,if_pos fun h=>hb ((cont_iff b).mp h)]
        rw [if_neg fun h=>hb (conts_iff.mp h.2 b List.mem_cons_self)]

theorem scan_eq {fuel : ℕ} (hs : (0 : UInt8)∉s) (hfuel : s.length < fuel) : scan fuel (s++0::junk)=some (decoded s):=by
  induction fuel generalizing s with
  | zero=>cases hfuel
  | succ fuel ih=>
    cases s with
    | nil=>rfl
    | cons c r=>
      have hc : c≠0:=fun h=>hs (h ▸ List.mem_cons_self)
      have hr : (0 : UInt8)∉r:=fun h=>hs (List.mem_cons_of_mem c h)
      have hlt : r.length < fuel:=Nat.lt_of_succ_lt_succ hfuel
      rw [List.cons_append,scan,if_neg hc,turn_eq hc,decoded,pieces,sequence]
      cases hlead : lead c with
      | none=>
        simp only [Option.bind_some,ih hr hlt]
        rfl
      | some l=>
        obtain ⟨r',hlen,hmem,hpieces,hrun⟩:=continuation_eq junk l.1 l.2 r
        simp only [hrun,Option.map_some,Option.bind_some,ih (fun h=>hr (hmem 0 h)) (Nat.lt_of_le_of_lt hlen hlt),
          decoded,hpieces]
        split_ifs <;> rfl

theorem fromUtf8_eq (hs : (0 : UInt8)∉s) : fromUtf8 (some (s++0::junk))=some (decoded s):=
  scan_eq hs (by simp)

/-- A sequence with its continuation bytes is one piece, whatever follows. -/
theorem pieces_append (hlen : r.length=n) (hseq : sequence (c::r)=some (n,cp)) :
    pieces f (c::r++rest)=f (n,cp)++pieces f rest:=by
  obtain ⟨l,hl,hif⟩:=Option.bind_eq_some_iff.mp hseq
  by_cases hconts : (r.take l.1).length=l.1 ∧ Conts (r.take l.1)=true
  swap
  · rw [if_neg hconts] at hif
    cases hif
  rw [if_pos hconts] at hif
  obtain ⟨rfl,rfl⟩:=Prod.mk.inj (Option.some.inj hif)
  rw [← hlen,List.take_length] at hconts
  have hskip : ∀ t : Bytes, (∀ b∈t, IsCont b)→pieces f (t++rest)=pieces f rest:=by
    intro t ht
    induction t with
    | nil=>rfl
    | cons b t iht=>
      rw [List.cons_append,pieces_cont (ht b List.mem_cons_self)]
      exact iht fun x hx=>ht x (List.mem_cons_of_mem b hx)
  have htake : (r++rest).take l.1=r:=by rw [← hlen,List.take_left]
  rw [List.cons_append,pieces,sequence,hl,hskip r (conts_iff.mp hconts.2)]
  simp only [Option.bind_some,htake,hlen,true_and]
  rw [if_pos hconts.2,Option.map_some,Option.getD_some,← hlen,List.take_length]

theorem encode_spec (b : UInt8) (hb : b≠0) : ∃ c r n cp, encode (toUnicode b)=c::r ∧ r.length=n ∧
    sequence (c::r)=some (n,cp) ∧ mapped cp=[b] ∧ (0 : UInt8)∉c::r:=by
  have hall : ∀ b : UInt8, b≠0→encode (toUnicode b)≠[] ∧ (0 : UInt8)∉encode (toUnicode b) ∧
      ((sequence (encode (toUnicode b))).map fun x=>(x.1+1,mapped x.2))=some ((encode (toUnicode b)).length,[b]):=
    forall_byte (by decide +kernel)
  obtain ⟨hsome,hnul,hspells⟩:=hall b hb
  obtain ⟨c,r,hencode⟩:=List.exists_cons_of_ne_nil hsome
  rw [hencode] at hnul hspells
  obtain ⟨x,hx,hpair⟩:=Option.map_eq_some_iff.mp hspells
  obtain ⟨hlen,hmap⟩:=Prod.mk.inj hpair
  exact ⟨c,r,x.1,x.2,hencode,(Nat.succ.inj hlen).symm,hx,hmap,hnul⟩

theorem toUtf8_eq (junk : Bytes) (hs : (0 : UInt8)∉s) :
    toUtf8 (some (s++0::junk))=some (s.flatMap fun b=>encode (toUnicode b)) ∧
    (0 : UInt8)∉s.flatMap (fun b=>encode (toUnicode b)) ∧ decoded (s.flatMap fun b=>encode (toUnicode b))=s:=by
  induction s with
  | nil=>exact ⟨by simp [toUtf8],by simp,rfl⟩
  | cons b s ih=>
    have hb : b≠0:=fun h=>hs (h ▸ List.mem_cons_self)
    obtain ⟨hto,hnul,hback⟩:=ih fun h=>hs (List.mem_cons_of_mem b h)
    obtain ⟨c,r,n,cp,hencode,hlen,hseq,hmap,hfree⟩:=encode_spec b hb
    refine ⟨?_,?_,?_⟩
    · rw [List.cons_append,toUtf8,if_neg hb,hto]
      rfl
    · rw [List.flatMap_cons,List.mem_append,hencode]
      exact fun h=>h.elim hfree hnul
    · rw [List.flatMap_cons,hencode,decoded,pieces_append hlen hseq]
      exact congrArg₂ (·++·) hmap hback

theorem pieces_length (h : ∀ x, g x=f x ∨ g x=[]) : (pieces g s).length ≤ (pieces f s).length:=by
  induction s with
  | nil=>rfl
  | cons c r ih=>
    rw [pieces,pieces,List.length_append,List.length_append]
    cases sequence (c::r) with
    | none=>simpa using ih
    | some x=>
      obtain hx | hx:=h x <;> simp only [Option.map_some,Option.getD_some,hx,List.length_nil] <;> omega

/-- Leaving out pieces changes the whole exactly when a piece left out was not empty. -/
theorem pieces_eq_iff (h : ∀ x, g x=f x ∨ g x=[]) :
    pieces f s=pieces g s ↔ ∀ t x, t <:+ s → sequence t=some x → f x=g x:=by
  induction s with
  | nil=>
    refine iff_of_true rfl fun t x ht hx=>?_
    rw [List.suffix_nil.mp ht] at hx
    cases hx
  | cons c r ih=>
    have hlen:=pieces_length (s:=r) h
    rw [pieces,pieces]
    constructor
    · intro heq t x ht hx
      have hfirst : ((sequence (c::r)).map g).getD []=((sequence (c::r)).map f).getD [] ∨
          ((sequence (c::r)).map g).getD []=[]:=by
        cases sequence (c::r) with
        | none=>exact .inr rfl
        | some y=>exact h y
      have hsplit : ((sequence (c::r)).map f).getD []=((sequence (c::r)).map g).getD [] ∧ pieces f r=pieces g r:=by
        apply List.append_inj heq
        have htotal:=congrArg List.length heq
        rw [List.length_append,List.length_append] at htotal
        obtain hfirst | hfirst:=hfirst <;> rw [hfirst] at htotal ⊢
        rw [List.length_nil] at htotal ⊢
        omega
      obtain rfl | ht:=List.suffix_cons_iff.mp ht
      · simpa [hx] using hsplit.1
      · exact ih.mp hsplit.2 t x ht hx
    · intro hall
      rw [ih.mpr fun t x ht=>hall t x (ht.trans (List.suffix_cons c r))]
      cases hseq : sequence (c::r) with
      | none=>rfl
      | some x=>
        rw [Option.map_some,Option.map_some,hall _ x List.suffix_rfl hseq]

/-- Text survives the way to UTF-8 and back; the decoder stops at the NUL, and its output is what the sequences spell,
which is what the well-formed ones spell as long as no other sequence spells a code point of the font. -/
theorem cp437_codec (s : CString) :
    (∃ u : CString, (∀ junk, toUtf8 (some (s.val++0::junk))=some u.val) ∧
      ∀ junk, fromUtf8 (some (u.val++0::junk))=some s.val) ∧
    (∀ junk, fromUtf8 (some (s.val++0::junk))=some (decoded s.val)) ∧
    (decoded s.val=decodedStrict s.val ↔
      ∀ t n cp, t <:+ s.val → sequence t=some (n,cp)→¬WellFormed n cp → fromUnicode cp=0):=by
  refine ⟨?_,fun junk=>fromUtf8_eq s.property,?_⟩
  · have hround (junk : Bytes):=toUtf8_eq junk s.property
    refine ⟨⟨_,(hround []).2.1⟩,fun junk=>(hround junk).1,fun junk=>?_⟩
    rw [fromUtf8_eq (hround []).2.1,(hround []).2.2]
  · unfold decoded decodedStrict
    rw [pieces_eq_iff fun x=>by split <;> simp]
    constructor
    · intro h t n cp ht hseq hbad
      have heq:=h t (n,cp) ht hseq
      rw [if_neg hbad,mapped] at heq
      by_contra hne
      rw [if_neg hne] at heq
      cases heq
    · intro h t x ht hseq
      by_cases hgood : WellFormed x.1 x.2
      · rw [if_pos hgood]
      · rw [if_neg hgood,mapped,if_pos (h t x.1 x.2 ht hseq hgood)]

/-- The two bytes `C1 81` are no well-formed UTF-8, and come out as the letter `A`. -/
theorem cp437_overlong : ¬∀ s : CString, ∀ junk, fromUtf8 (some (s.val++0::junk))=some (decodedStrict s.val):=by
  intro h
  have hA:=h ⟨[0xC1,0x81],by decide⟩ []
  revert hA
  decide +kernel

end CdcBadge.Cp437
