import CdcBadge.CborRoundTrip

/-!
# Round trips of CBOR trees

A tree of items is written by the matching write functions and read back by the
matching read functions. The leaves carry what is written and the buffers that the
reader's caller provides.
-/

namespace CdcBadge.Cbor

open Handler

inductive Tree (α : Type)
  | leaf (a : α)
  | array (items : List (Tree α))
  | map (pairs : List (Tree α × Tree α))

/-- What is written, and for strings and COSE keys the buffers it is read back to: at least as large as the
string, with the terminator of a text, and the coordinates' buffers with what they held before. -/
inductive Leaf
  | uint (value : UInt64)
  | int (value : Int64)
  | bytes (data : Bytes) (maxLen : UInt64) (hmax : data.length ≤ maxLen.toNat)
  | text (data : Bytes) (hnul : 0 ∉ data) (maxLen : UInt64) (hmax : data.length < maxLen.toNat)
  | textLen (data : Bytes) (maxLen : UInt64) (hmax : data.length < maxLen.toNat)
  | bool (value : Bool)
  | coseKeyP256 (x y : ByteArr 32) (outX : ByteArr 32) (outY : Option (ByteArr 32))
  | coseKeyEd25519 (pubkey : ByteArr 32) (outX : ByteArr 32) (outY : Option (ByteArr 32))

/-- What a read function gives its caller. -/
inductive Value
  | uint (value : ℕ)
  | int (value : ℤ)
  | bytes (data : Bytes)
  | text (data : Bytes)
  | bool (value : Bool)
  | coseKey (key : CoseKey)
  deriving DecidableEq

namespace Leaf

def write : Leaf→Writer→Writer
  | uint value=>Writer.uint value.toNat
  | int value=>Writer.int value.toInt
  | bytes data .. => Writer.bytes data
  | text data .. => Writer.text data
  | textLen data .. => Writer.textLen data
  | bool value=>Writer.bool value
  | coseKeyP256 x y .. => Writer.coseKeyP256 x.toList y.toList
  | coseKeyEd25519 pubkey .. => Writer.coseKeyEd25519 pubkey.toList

def read : Leaf→Read Value
  | uint _=>do pure (.uint (← readUint))
  | int _=>do pure (.int (← readInt))
  | bytes _ maxLen _=>do pure (.bytes (← readBytes maxLen.toNat))
  | text _ _ maxLen _=>do pure (.text (← readText maxLen.toNat))
  | textLen _ maxLen _=>do pure (.text (← readText maxLen.toNat))
  | bool _=>do pure (.bool (← readBool))
  | coseKeyP256 _ _ outX outY=>do pure (.coseKey (← parseCoseKey {x:=outX,y:=outY}))
  | coseKeyEd25519 _ outX outY=>do pure (.coseKey (← parseCoseKey {x:=outX,y:=outY}))

/-- What the caller should have after the read. A coordinate that it gave no buffer for is not asked for, and
the one that an Ed25519 key does not have is left alone. -/
def value : Leaf→Value
  | uint value=>.uint value.toNat
  | int value=>.int value.toInt
  | bytes data .. => .bytes data
  | text data .. => .text data
  | textLen data .. => .text data
  | bool value=>.bool value
  | coseKeyP256 x y _ outY=>.coseKey {kty:=2,alg := -7,x:=x,y:=outY.map fun _=>y}
  | coseKeyEd25519 pubkey _ outY=>.coseKey {kty:=1,alg := -8,x:=pubkey,y:=outY}

def Asked : Leaf→Prop
  | coseKeyP256 _ _ _ outY=>outY.isSome
  | _=>True

def p256Encoding (x : ByteArr 32) (rest : Bytes) : Bytes:=
  head .map 5++((intHead 1++head .unsigned 2)++((intHead 3++intHead (-7)) ++
    ((intHead (-1)++head .unsigned 1)++((intHead (-2)++(head .bytes x.toList.length++x.toList))++rest))))

def ed25519Encoding (pubkey : ByteArr 32) : Bytes:=
  head .map 4++((intHead 1++head .unsigned 1)++((intHead 3++intHead (-8)) ++
    ((intHead (-1)++head .unsigned 6)++(intHead (-2)++(head .bytes pubkey.toList.length++pubkey.toList)))))

def encoding : Leaf→Bytes
  | uint value=>head .unsigned value.toNat
  | int value=>intHead value.toInt
  | bytes data .. => head .bytes data.length++data
  | text data .. => head .text data.length++data
  | textLen data .. => head .text data.length++data
  | bool value=>[boolByte value]
  | coseKeyP256 x y .. => p256Encoding x (intHead (-3)++(head .bytes y.toList.length++y.toList))
  | coseKeyEd25519 pubkey .. => ed25519Encoding pubkey

end Leaf

namespace Tree

mutual

def write : Tree Leaf→Writer→Writer
  | leaf l, w=>l.write w
  | array items, w=>writeAll items (w.array items.length)
  | map pairs, w=>writePairs pairs (w.map pairs.length)

def writeAll : List (Tree Leaf)→Writer→Writer
  | [], w=>w
  | t::ts, w=>writeAll ts (t.write w)

def writePairs : List (Tree Leaf × Tree Leaf)→Writer→Writer
  | [], w=>w
  | (key,t)::ps, w=>writePairs ps (t.write (key.write w))

end

mutual

def encoding : Tree Leaf→Bytes
  | leaf l=>l.encoding
  | array items=>head .array items.length++encodingAll items
  | map pairs=>head .map pairs.length++encodingPairs pairs

def encodingAll : List (Tree Leaf)→Bytes
  | []=>[]
  | t::ts=>t.encoding++encodingAll ts

def encodingPairs : List (Tree Leaf × Tree Leaf)→Bytes
  | []=>[]
  | (key,t)::ps=>key.encoding++t.encoding++encodingPairs ps

end

mutual

def read : Tree Leaf→Read (Tree Value)
  | leaf l=>do pure (leaf (← l.read))
  | array items=>do
    let count ← readArray
    if count=items.length then pure (array (← readAll items)) else stop ()
  | map pairs=>do
    let count ← readMap
    if count=pairs.length then pure (map (← readPairs pairs)) else stop ()

def readAll : List (Tree Leaf)→Read (List (Tree Value))
  | []=>pure []
  | t::ts=>do pure ((← t.read)::(← readAll ts))

def readPairs : List (Tree Leaf × Tree Leaf)→Read (List (Tree Value × Tree Value))
  | []=>pure []
  | (key,t)::ps=>do pure ((← key.read,← t.read)::(← readPairs ps))

end

mutual

def value : Tree Leaf→Tree Value
  | leaf l=>leaf l.value
  | array items=>array (valueAll items)
  | map pairs=>map (valuePairs pairs)

def valueAll : List (Tree Leaf) → List (Tree Value)
  | []=>[]
  | t::ts=>t.value::valueAll ts

def valuePairs : List (Tree Leaf × Tree Leaf) → List (Tree Value × Tree Value)
  | []=>[]
  | (key,t)::ps=>(key.value,t.value)::valuePairs ps

end

mutual

/-- No count exceeds an `int`, and both coordinates of P-256 keys are asked for. -/
def Readable : Tree Leaf→Prop
  | leaf l=>l.Asked
  | array items=>items.length < 2^31 ∧ ReadableAll items
  | map pairs=>pairs.length < 2^31 ∧ ReadablePairs pairs

def ReadableAll : List (Tree Leaf)→Prop
  | []=>True
  | t::ts=>t.Readable ∧ ReadableAll ts

def ReadablePairs : List (Tree Leaf × Tree Leaf)→Prop
  | []=>True
  | (key,t)::ps=>(key.Readable ∧ t.Readable) ∧ ReadablePairs ps

end

/-- A buffer that is large enough takes the tree, which is read back with nothing left over of it; in any other
the writer reports an error. It never writes past the end. -/
def RoundTrips (t : Tree Leaf) : Prop:=
  ∀ size more,
    (t.write {size:=size}).out.length ≤ size ∧
    (size < t.encoding.length→(t.write {size:=size}).error=true) ∧
    (t.encoding.length ≤ size →
      (t.write {size:=size}).error=false ∧
      t.read {rest:=(t.write {size:=size}).out++more}=(.ok t.value,{rest:=more}))

end Tree

theorem emits_bytes (data : Bytes) : Emits (Writer.bytes data) (head .bytes data.length++data):=
  (emits_writeTypeValue _ _).comp (emits_writeBytes data)

theorem emits_textLen (data : Bytes) : Emits (Writer.textLen data) (head .text data.length++data):=
  (emits_writeTypeValue _ _).comp (emits_writeBytes data)

theorem emits_text {data : Bytes} (hnul : 0 ∉ data) : Emits (Writer.text data) (head .text data.length++data):=by
  have htext : Writer.text data=Writer.textLen data:=funext fun w=>by
    rw [Writer.text,Writer.textLen,cstr_eq_self hnul]
  exact htext ▸ emits_textLen data

theorem copyCoordinate_full (out x : ByteArr 32) : copyCoordinate out x.toList=x:=
  fit_append x _

section
variable (kty alg : ℤ) (outX : ByteArr 32) (outY : Option (ByteArr 32))

theorem reads_coseKeyPair_kty {n : ℕ} (hn : n < 2^31) :
    Reads (coseKeyPair ⟨kty,alg,outX,outY⟩) (intHead 1++head .unsigned n) ⟨n,alg,outX,outY⟩:=by
  apply (reads_readInt (by norm_num) (by norm_num)).bind
  have hsize : n < 2^64:=by omega
  exact (reads_readUint hsize).map (fun n=>(⟨toInt n,alg,outX,outY⟩ : CoseKey)) (by rw [toInt_of_lt hn])

theorem reads_coseKeyPair_alg {value : ℤ} (hlo : -2^31 ≤ value) (hhi : value < 2^31) :
    Reads (coseKeyPair ⟨kty,alg,outX,outY⟩) (intHead 3++intHead value) ⟨kty,value,outX,outY⟩:=by
  apply (reads_readInt (by norm_num) (by norm_num)).bind
  have hint : Int.bmod value (2^32)=value:=by
    rw [Int.bmod_def]
    norm_num
    omega
  have hread : Reads readInt (intHead value) value:=reads_readInt (by omega) (by omega)
  exact hread.map (fun value=>(⟨kty,Int.bmod value (2^32),outX,outY⟩ : CoseKey)) (by rw [hint])

theorem reads_coseKeyPair_crv (n : ℕ) :
    Reads (coseKeyPair ⟨kty,alg,outX,outY⟩) (intHead (-1)++head .unsigned n) ⟨kty,alg,outX,outY⟩:=by
  apply (reads_readInt (by norm_num) (by norm_num)).bind
  have hskip : Reads skipItem (head .unsigned n) ():=(reads_readItem .unsigned n (by decide)).last (Reads.pure ())
  exact hskip.last (Reads.pure _)

theorem reads_coordinate (x : ByteArr 32) :
    Reads (readBytes 32) (head .bytes x.toList.length++x.toList) x.toList:=
  reads_readBytes (by simp) (by simp)

theorem reads_coseKeyPair_x (x : ByteArr 32) :
    Reads (coseKeyPair ⟨kty,alg,outX,outY⟩) (intHead (-2)++(head .bytes x.toList.length++x.toList))
      ⟨kty,alg,x,outY⟩:=by
  apply (reads_readInt (by norm_num) (by norm_num)).bind
  exact (reads_coordinate x).map (fun data=>(⟨kty,alg,copyCoordinate outX data,outY⟩ : CoseKey))
    (by rw [copyCoordinate_full])

theorem reads_coseKeyPair_y (y out : ByteArr 32) :
    Reads (coseKeyPair ⟨kty,alg,outX,some out⟩) (intHead (-3)++(head .bytes y.toList.length++y.toList))
      ⟨kty,alg,outX,some y⟩:=by
  apply (reads_readInt (by norm_num) (by norm_num)).bind
  exact (reads_coordinate y).map (fun data=>(⟨kty,alg,outX,some (copyCoordinate out data)⟩ : CoseKey))
    (by rw [copyCoordinate_full])

theorem reads_coseKeyPair_none :
    Reads (coseKeyPair ⟨kty,alg,outX,none⟩) (intHead (-3)) ⟨kty,alg,outX,none⟩:=by
  apply (reads_readInt (by norm_num) (by norm_num)).last
  exact Reads.pure _

theorem reads_parseCoseKey {n : ℕ} {bytes : Bytes} {key : CoseKey} (hn : n < 2^31)
    (hpairs : Reads (iterate n coseKeyPair ⟨0,0,outX,outY⟩) bytes key) :
    Reads (parseCoseKey ⟨kty,alg,outX,outY⟩) (head .map n++bytes) key:=by
  apply (reads_readMap n).bind
  rw [(toInt_mod_eq_iff n).mpr hn,if_neg (by omega),Int.toNat_natCast]
  exact hpairs

end

namespace Leaf

variable (x y pubkey outX : ByteArr 32) (outY : Option (ByteArr 32))

theorem reads_p256Pairs {rest : Bytes} {key : CoseKey}
    (hlast : Reads (coseKeyPair ⟨2,-7,x,outY⟩) rest key) :
    Reads (parseCoseKey ⟨0,0,outX,outY⟩) (p256Encoding x rest) key:=by
  apply reads_parseCoseKey _ _ _ _ (by norm_num)
  apply (reads_coseKeyPair_kty _ _ _ _ (by norm_num)).bind
  apply (reads_coseKeyPair_alg _ _ _ _ (by norm_num) (by norm_num)).bind
  apply (reads_coseKeyPair_crv _ _ _ _ 1).bind
  apply (reads_coseKeyPair_x _ _ _ _ x).bind
  exact hlast.last (Reads.pure key)

theorem reads_ed25519 :
    Reads (parseCoseKey ⟨0,0,outX,outY⟩) (ed25519Encoding pubkey) ⟨1,-8,pubkey,outY⟩:=by
  apply reads_parseCoseKey _ _ _ _ (by norm_num)
  apply (reads_coseKeyPair_kty _ _ _ _ (by norm_num)).bind
  apply (reads_coseKeyPair_alg _ _ _ _ (by norm_num) (by norm_num)).bind
  apply (reads_coseKeyPair_crv _ _ _ _ 6).bind
  exact (reads_coseKeyPair_x _ _ _ _ pubkey).last (Reads.pure _)

theorem emits_p256 : Emits (Writer.coseKeyP256 x.toList y.toList)
    (p256Encoding x (intHead (-3)++(head .bytes y.toList.length++y.toList))):=by
  have hkty:=(emits_writeTypeValue .unsigned 1).comp (emits_writeTypeValue .unsigned 2)
  have halg:=(emits_writeTypeValue .unsigned 3).comp (emits_int (-7))
  have hcrv:=(emits_int (-1)).comp (emits_writeTypeValue .unsigned 1)
  have hx:=(emits_int (-2)).comp (emits_bytes x.toList)
  have hy:=(emits_int (-3)).comp (emits_bytes y.toList)
  exact (emits_writeTypeValue .map 5).comp (hkty.comp (halg.comp (hcrv.comp (hx.comp hy))))

theorem emits_ed25519 : Emits (Writer.coseKeyEd25519 pubkey.toList) (ed25519Encoding pubkey):=by
  have hkty:=(emits_writeTypeValue .unsigned 1).comp (emits_writeTypeValue .unsigned 1)
  have halg:=(emits_writeTypeValue .unsigned 3).comp (emits_int (-8))
  have hcrv:=(emits_int (-1)).comp (emits_writeTypeValue .unsigned 6)
  have hx:=(emits_int (-2)).comp (emits_bytes pubkey.toList)
  exact (emits_writeTypeValue .map 4).comp (hkty.comp (halg.comp (hcrv.comp hx)))

theorem emits (l : Leaf) : Emits l.write l.encoding:=by
  cases l with
  | uint value=>exact emits_writeTypeValue .unsigned value.toNat
  | int value=>exact emits_int value.toInt
  | bytes data=>exact emits_bytes data
  | text data hnul=>exact emits_text hnul
  | textLen data=>exact emits_textLen data
  | bool value=>exact emits_writeByte (boolByte value)
  | coseKeyP256 x y=>exact emits_p256 x y
  | coseKeyEd25519 pubkey=>exact emits_ed25519 pubkey

theorem reads (l : Leaf) (hl : l.Asked) : Reads l.read l.encoding l.value:=by
  cases l with
  | uint value=>exact (reads_readUint value.toNat_lt).map _ rfl
  | int value=>exact (reads_readInt value.le_toInt value.toInt_lt).map _ rfl
  | bytes data maxLen hmax=>exact (reads_readBytes (by have:=maxLen.toNat_lt; omega) hmax).map _ rfl
  | text data hnul maxLen hmax=>exact (reads_readText (by have:=maxLen.toNat_lt; omega) hmax).map _ rfl
  | textLen data maxLen hmax=>exact (reads_readText (by have:=maxLen.toNat_lt; omega) hmax).map _ rfl
  | bool value=>exact (reads_readBool value).map _ rfl
  | coseKeyP256 x y outX outY=>
    obtain ⟨out,rfl⟩:=Option.isSome_iff_exists.mp hl
    exact (reads_p256Pairs x outX (some out) (reads_coseKeyPair_y _ _ _ y out)).map _ rfl
  | coseKeyEd25519 pubkey outX outY=>exact (reads_ed25519 pubkey outX outY).map _ rfl

end Leaf

namespace Tree

mutual

theorem emits : ∀ t : Tree Leaf, Emits t.write t.encoding
  | leaf l=>by simpa only [write,encoding] using l.emits
  | array items=>(emits_writeTypeValue .array items.length).comp (emits_all items)
  | map pairs=>(emits_writeTypeValue .map pairs.length).comp (emits_pairs pairs)

theorem emits_all : ∀ ts : List (Tree Leaf), Emits (writeAll ts) (encodingAll ts)
  | []=>Emits.nil
  | t::ts=>(emits t).comp (emits_all ts)

theorem emits_pairs : ∀ ps : List (Tree Leaf × Tree Leaf), Emits (writePairs ps) (encodingPairs ps)
  | []=>Emits.nil
  | (key,t)::ps=>((emits key).comp (emits t)).comp (emits_pairs ps)

end

mutual

theorem reads : ∀ t : Tree Leaf, t.Readable→Reads t.read t.encoding t.value
  | leaf l, h=>(l.reads h).map _ rfl
  | array items, ⟨hcount,h⟩=>by
    apply (reads_readArray items.length).bind
    rw [(toInt_mod_eq_iff _).mpr hcount,if_pos rfl]
    exact (reads_all items h).map _ rfl
  | map pairs, ⟨hcount,h⟩=>by
    apply (reads_readMap pairs.length).bind
    rw [(toInt_mod_eq_iff _).mpr hcount,if_pos rfl]
    exact (reads_pairs pairs h).map _ rfl

theorem reads_all : ∀ ts : List (Tree Leaf), ReadableAll ts→Reads (readAll ts) (encodingAll ts) (valueAll ts)
  | [], _=>Reads.pure []
  | t::ts, ⟨ht,hts⟩=>(reads t ht).bind ((reads_all ts hts).map _ rfl)

theorem reads_pairs : ∀ ps : List (Tree Leaf × Tree Leaf),
    ReadablePairs ps→Reads (readPairs ps) (encodingPairs ps) (valuePairs ps)
  | [], _=>Reads.pure []
  | (key,t)::ps, ⟨⟨hkey,ht⟩,hps⟩=>by
    simp only [encodingPairs,List.append_assoc]
    exact (reads key hkey).bind ((reads t ht).bind ((reads_pairs ps hps).map _ rfl))

end

end Tree

def string (data : Bytes) : Bytes:=head .bytes data.length++data

theorem reads_string {data : Bytes} (hdata : data.length < 2^64) :
    Reads readItem (string data) ⟨.bytes,data.length,data⟩:=
  reads_readItem_string (.inl rfl) hdata

/-- From these bytes a read does not return this value, or it leaves a byte string behind. -/
def Strays {α : Type} (m : Read α) (bytes : Bytes) (a : α) : Prop:=
  ∀ more s, m {rest:=bytes++more}=(.ok a,s) →
    ∃ data, data.length < 2^64 ∧ s={rest:=string data++more}

section
variable {α β : Type}

theorem Reads.bind_strays {m : Read α} {k : α→Read β} {as bs : Bytes} {a : α} {b : β}
    (hm : Reads m as a) (hk : Strays (k a) bs b) : Strays (m >>= k) (as++bs) b:=by
  intro more s hs
  rw [List.append_assoc,bind_of_ok (hm (bs++more))] at hs
  exact hk more s hs

/-- The rest of a read goes on from the byte string, if what it returns shows what the first part returned. -/
theorem Strays.bind {m : Read α} {k : α→Read β} {as bs : Bytes} {a : α} {b : β} (hm : Strays m as a)
    (hk : ∀ data, data.length < 2^64 → Strays (k a) (string data++bs) b)
    (hshows : ∀ a' s s', k a' s=(.ok b,s')→a'=a) : Strays (m >>= k) (as++bs) b:=by
  intro more s hs
  obtain ⟨a',t,ha',hb⟩:=bind_ok.mp hs
  obtain rfl:=hshows a' t s hb
  rw [List.append_assoc] at ha'
  obtain ⟨data,hdata,rfl⟩:=hm (bs++more) t ha'
  rw [← List.append_assoc] at hb
  exact hk data hdata more s hb

def Fails (m : Read α) (bytes : Bytes) : Prop:=∀ more, ∃ s, m {rest:=bytes++more}=(.error (),s)

theorem Fails.bind {m : Read α} {bytes : Bytes} (hm : Fails m bytes) (k : α→Read β) : Fails (m >>= k) bytes:=by
  intro more
  obtain ⟨s,hs⟩:=hm more
  exact ⟨s,bind_of_error hs⟩

theorem Fails.strays {m : Read α} {data : Bytes} (hm : Fails m (string data)) (bs : Bytes) (a : α) :
    Strays m (string data++bs) a:=by
  intro more s hs
  obtain ⟨t,ht⟩:=hm (bs++more)
  rw [List.append_assoc,ht] at hs
  cases hs

theorem fails_readItem {k : Item→Read α} {data : Bytes} (hdata : data.length < 2^64)
    (hk : ∀ value bytes, k ⟨.bytes,value,bytes⟩=malformed) : Fails (readItem >>= k) (string data):=by
  intro more
  rw [bind_of_ok (reads_string hdata more),hk]
  exact ⟨_,rfl⟩

end

theorem Leaf.strays {l : Leaf} (hl : ¬ l.Asked) : Strays l.read l.encoding l.value:=by
  cases l with
  | coseKeyP256 x y outX outY=>
    obtain rfl : outY=none:=by simpa [Leaf.Asked] using hl
    intro more s hs
    have hread:=(Leaf.reads_p256Pairs x outX none (reads_coseKeyPair_none _ _ _)).map Value.coseKey rfl
    have hrest : (Leaf.coseKeyP256 x y outX none).encoding++more =
        Leaf.p256Encoding x (intHead (-3))++(string y.toList++more):=by
      simp [Leaf.encoding,Leaf.p256Encoding,string]
    rw [hrest] at hs
    refine ⟨y.toList,by simp,?_⟩
    exact (congrArg Prod.snd (hs.symm.trans (hread _)))
  | _=>exact absurd trivial hl

theorem Strays.map {α β : Type} {m : Read α} {f : α → β} {bytes : Bytes} {a : α} (hm : Strays m bytes a)
    (hf : Function.Injective f) : Strays (m >>= fun a=>pure (f a)) bytes (f a):=by
  intro more s hs
  obtain ⟨a',t,ha',hb⟩:=bind_ok.mp hs
  obtain ⟨hvalue,rfl⟩:=Prod.mk.inj hb
  obtain rfl:=hf (Except.ok.inj hvalue)
  exact hm more t ha'

theorem strays_readBytes {data bs : Bytes} (hdata : data.length < 2^64) {bytes : Bytes} {maxLen : UInt64}
    (hmax : bytes.length ≤ maxLen.toNat) (hbs : bs=string bytes) :
    Strays (readBytes maxLen.toNat) (string data++bs) bytes:=by
  have hlt:=maxLen.toNat_lt
  intro more s hs
  have hread : Reads (readBytes maxLen.toNat) (string data) (data.take maxLen.toNat):=
    (reads_string hdata).last (Reads.pure _)
  rw [List.append_assoc,hread] at hs
  obtain ⟨-,rfl⟩:=Prod.mk.inj hs
  exact ⟨bytes,by omega,by rw [hbs]⟩

theorem fails_readBool (data : Bytes) : Fails readBool (string data):=by
  have hbyte : ∀ info < 32, UInt8.ofNat (MajorType.bytes.code*32+info)≠0xF4 ∧
      UInt8.ofNat (MajorType.bytes.code*32+info)≠0xF5:=by decide
  obtain ⟨hfalse,htrue⟩:=hbyte _ (argument_lt data.length)
  have hhead : Reads readByte [UInt8.ofNat (MajorType.bytes.code*32+(argument data.length).1)] _:=
    reads_readByte _
  intro more
  have hrest : string data++more=[UInt8.ofNat (MajorType.bytes.code*32+(argument data.length).1)] ++
    (beBytes (argument data.length).2 data.length++data++more):=rfl
  rw [readBool,hrest,bind_of_ok (hhead _),if_neg hfalse,if_neg htrue]
  exact ⟨_,rfl⟩

theorem fails_readText {data : Bytes} (hdata : data.length < 2^64) (maxLen : ℕ) :
    Fails (readText maxLen) (string data):=by
  unfold readText
  split
  · exact fun more=>⟨_,rfl⟩
  · exact Fails.bind (fails_readItem hdata fun _ _=>rfl) _

theorem Leaf.behind (l : Leaf) {data : Bytes} (hdata : data.length < 2^64) :
    Strays l.read (string data++l.encoding) l.value:=by
  cases l with
  | uint value=>exact ((fails_readItem hdata fun _ _=>rfl).bind _).strays _ _
  | int value=>exact ((fails_readItem hdata fun _ _=>rfl).bind _).strays _ _
  | bytes bytes maxLen hmax=>exact (strays_readBytes hdata hmax rfl).map fun _ _=>Value.bytes.inj
  | text text hnul maxLen hmax=>exact ((fails_readText hdata _).bind _).strays _ _
  | textLen text maxLen hmax=>exact ((fails_readText hdata _).bind _).strays _ _
  | bool value=>exact ((fails_readBool data).bind _).strays _ _
  | coseKeyP256 x y outX outY=>exact (((fails_readItem hdata fun _ _=>rfl).bind _).bind _).strays _ _
  | coseKeyEd25519 pubkey outX outY=>exact (((fails_readItem hdata fun _ _=>rfl).bind _).bind _).strays _ _

namespace Tree

theorem readAll_cons_value {t : Tree Leaf} {ts : List (Tree Leaf)} {v : Tree Value} {s s' : Reader}
    (h : (do pure (v::(← readAll ts)) : Read (List (Tree Value))) s=(.ok (valueAll (t::ts)),s')) :
    v=t.value:=by
  obtain ⟨vs,u,-,hvs⟩:=bind_ok.mp h
  exact (List.cons.inj (Except.ok.inj (Prod.mk.inj hvs).1)).1

section
variable {key t : Tree Leaf} {ps : List (Tree Leaf × Tree Leaf)} {k v : Tree Value} {s s' : Reader}

theorem readPairs_cons_value
    (h : (do pure ((k,v)::(← readPairs ps)) : Read (List (Tree Value × Tree Value))) s =
      (.ok (valuePairs ((key,t)::ps)),s')) : k=key.value ∧ v=t.value:=by
  obtain ⟨rest,u,-,hrest⟩:=bind_ok.mp h
  exact Prod.mk.inj (List.cons.inj (Except.ok.inj (Prod.mk.inj hrest).1)).1

theorem readPairs_key_value
    (h : (do pure ((k,← t.read)::(← readPairs ps)) : Read (List (Tree Value × Tree Value))) s =
      (.ok (valuePairs ((key,t)::ps)),s')) : k=key.value:=by
  obtain ⟨v,u,-,hv⟩:=bind_ok.mp h
  exact (readPairs_cons_value hv).1

end

mutual

theorem behind : ∀ (t : Tree Leaf) {data : Bytes}, data.length < 2^64 →
    Strays t.read (string data++t.encoding) t.value
  | leaf l, _, hdata=>(l.behind hdata).map fun _ _=>leaf.inj
  | array _, _, hdata=>((fails_readItem hdata fun _ _=>rfl).bind _).strays _ _
  | map _, _, hdata=>((fails_readItem hdata fun _ _=>rfl).bind _).strays _ _

theorem behind_all : ∀ (ts : List (Tree Leaf)) {data : Bytes}, data.length < 2^64 →
    Strays (readAll ts) (string data++encodingAll ts) (valueAll ts)
  | [], data, hdata=>by
    intro more s hs
    obtain ⟨-,rfl⟩:=Prod.mk.inj hs
    exact ⟨data,hdata,by simp [encodingAll]⟩
  | t::ts, data, hdata=>by
    rw [encodingAll,← List.append_assoc]
    exact (behind t hdata).bind (fun data hdata=>(behind_all ts hdata).map fun _ _ h=>(List.cons.inj h).2)
      fun v s s' h=>readAll_cons_value h

theorem behind_pairs : ∀ (ps : List (Tree Leaf × Tree Leaf)) {data : Bytes}, data.length < 2^64 →
    Strays (readPairs ps) (string data++encodingPairs ps) (valuePairs ps)
  | [], data, hdata=>by
    intro more s hs
    obtain ⟨-,rfl⟩:=Prod.mk.inj hs
    exact ⟨data,hdata,by simp [encodingPairs]⟩
  | (key,t)::ps, data, hdata=>by
    rw [encodingPairs,List.append_assoc,← List.append_assoc]
    refine (behind key hdata).bind (fun data hdata=>?_) fun k s s' h=>readPairs_key_value h
    rw [← List.append_assoc]
    exact (behind t hdata).bind (fun data hdata=>(behind_pairs ps hdata).map fun _ _ h=>(List.cons.inj h).2)
      fun v s s' h=>(readPairs_cons_value h).2

end

mutual

/-- A tree with a count or a key that is not read to its end is not read back, or leaves a byte string behind. -/
theorem strays : ∀ t : Tree Leaf, ¬ t.Readable → Strays t.read t.encoding t.value
  | leaf l, h=>(l.strays h).map fun _ _=>leaf.inj
  | array items, h=>by
    apply (reads_readArray items.length).bind_strays
    by_cases hcount : items.length < 2^31
    · rw [(toInt_mod_eq_iff _).mpr hcount,if_pos rfl]
      exact (strays_all items fun hall=>h ⟨hcount,hall⟩).map fun _ _=>array.inj
    · rw [if_neg fun heq=>hcount ((toInt_mod_eq_iff _).mp heq)]
      intro more s hs
      cases hs
  | map pairs, h=>by
    apply (reads_readMap pairs.length).bind_strays
    by_cases hcount : pairs.length < 2^31
    · rw [(toInt_mod_eq_iff _).mpr hcount,if_pos rfl]
      exact (strays_pairs pairs fun hall=>h ⟨hcount,hall⟩).map fun _ _=>map.inj
    · rw [if_neg fun heq=>hcount ((toInt_mod_eq_iff _).mp heq)]
      intro more s hs
      cases hs

theorem strays_all : ∀ ts : List (Tree Leaf),
    ¬ ReadableAll ts → Strays (readAll ts) (encodingAll ts) (valueAll ts)
  | [], h=>absurd trivial h
  | t::ts, h=>by
    by_cases ht : t.Readable
    · exact (reads t ht).bind_strays ((strays_all ts fun hts=>h ⟨ht,hts⟩).map fun _ _ h=>(List.cons.inj h).2)
    · exact (strays t ht).bind (fun data hdata=>(behind_all ts hdata).map fun _ _ h=>(List.cons.inj h).2)
        fun v s s' h=>readAll_cons_value h

theorem strays_pairs : ∀ ps : List (Tree Leaf × Tree Leaf),
    ¬ ReadablePairs ps → Strays (readPairs ps) (encodingPairs ps) (valuePairs ps)
  | [], h=>absurd trivial h
  | (key,t)::ps, h=>by
    rw [encodingPairs,List.append_assoc]
    by_cases hkey : key.Readable
    · apply (reads key hkey).bind_strays
      by_cases ht : t.Readable
      · exact (reads t ht).bind_strays
          ((strays_pairs ps fun hps=>h ⟨⟨hkey,ht⟩,hps⟩).map fun _ _ h=>(List.cons.inj h).2)
      · exact (strays t ht).bind (fun data hdata=>(behind_pairs ps hdata).map fun _ _ h=>(List.cons.inj h).2)
          fun v s s' h=>(readPairs_cons_value h).2
    · refine (strays key hkey).bind (fun data hdata=>?_) fun k s s' h=>readPairs_key_value h
      rw [← List.append_assoc]
      exact (behind t hdata).bind (fun data hdata=>(behind_pairs ps hdata).map fun _ _ h=>(List.cons.inj h).2)
        fun v s s' h=>(readPairs_cons_value h).2

end

/-- A tree is written and read back exactly when its counts fit an `int` and both coordinates of its P-256 keys
are asked for. -/
theorem roundTrips_iff (t : Tree Leaf) : t.RoundTrips ↔ t.Readable:=by
  have hemits:=t.emits
  constructor
  · intro h
    by_contra hreadable
    obtain ⟨-,-,hfits⟩:=h t.encoding.length []
    obtain ⟨-,hread⟩:=hfits le_rfl
    rw [hemits.fits {size:=t.encoding.length} rfl (by simp)] at hread
    obtain ⟨data,-,hrest⟩:=t.strays hreadable [] _ hread
    have hnil : []=string data:=by simpa using hrest
    simp [string,head] at hnil
  · intro h size more
    by_cases hsize : t.encoding.length ≤ size
    · rw [hemits.fits {size:=size} rfl (by simpa using hsize)]
      exact ⟨by simpa using hsize,fun hlt=>absurd hlt (by omega),fun _=>⟨rfl,t.reads h more⟩⟩
    · obtain ⟨herror,hlength⟩:=hemits.overflows {size:=size} rfl (by simp) (by simpa using hsize)
      exact ⟨hlength,fun _=>herror,fun hle=>absurd hle hsize⟩

/-- A P-256 key that is parsed without a buffer for its y coordinate leaves that coordinate unread. -/
theorem not_roundTrips_p256 : ¬ (leaf (.coseKeyP256 (zeros 32) (zeros 32) (zeros 32) none)).RoundTrips:=by
  intro h
  obtain ⟨-,-,hfits⟩:=h 128 []
  obtain ⟨-,hread⟩:=hfits (by decide)
  exact absurd (congrArg (fun p=>p.2.rest) hread) (by decide +kernel)

end Tree

end CdcBadge.Cbor
