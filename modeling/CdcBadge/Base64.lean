import CdcBadge.Bytes

/-! # Base64 with padding, and its decoding -/

namespace CdcBadge.Base64

def digit (n : ℕ) : UInt8:=
  if n < 26 then UInt8.ofNat (65+n)
  else if n < 52 then UInt8.ofNat (71+n)
  else if n < 62 then UInt8.ofNat (n-4)
  else if n=62 then 43 else 47

def value (c : UInt8) : Option ℕ:=
  let n:=c.toNat
  if 65 ≤ n ∧ n ≤ 90 then some (n-65)
  else if 97 ≤ n ∧ n ≤ 122 then some (n-71)
  else if 48 ≤ n ∧ n ≤ 57 then some (n+4)
  else if n=43 then some 62
  else if n=47 then some 63
  else none

def encode : Bytes→Bytes
  | a::b::c::rest=>
    digit (a.toNat/4)::digit (a.toNat % 4*16+b.toNat/16)::digit (b.toNat % 16*4+c.toNat/64) ::
      digit (c.toNat % 64)::encode rest
  | [a,b]=>[digit (a.toNat/4),digit (a.toNat % 4*16+b.toNat/16),digit (b.toNat % 16*4),61]
  | [a]=>[digit (a.toNat/4),digit (a.toNat % 4*16),61,61]
  | []=>[]

def decode : Bytes→Option Bytes
  | []=>some []
  | w::x::y::z::rest=>do
    let p ← value w
    let q ← value x
    if z=61 then
      if rest≠[] then none
      else if y=61 then return [UInt8.ofNat (p*4+q/16)]
      else
        let r ← value y
        return [UInt8.ofNat (p*4+q/16),UInt8.ofNat (q % 16*16+r/4)]
    else
      let r ← value y
      let t ← value z
      let more ← decode rest
      return UInt8.ofNat (p*4+q/16)::UInt8.ofNat (q % 16*16+r/4)::UInt8.ofNat (r % 4*64+t)::more
  | _=>none

theorem value_digit {n : ℕ} (h : n < 64) : value (digit n)=some n ∧ digit n≠61:=by
  have hall : ∀ m : Fin 64, value (digit m.val)=some m.val ∧ digit m.val≠61:=by decide +kernel
  exact hall ⟨n,h⟩

theorem decode_encode (data : Bytes) : decode (encode data)=some data:=by
  induction data using encode.induct with
  | case1 a b c rest ih=>
    have ha:=a.toNat_lt
    have hb:=b.toNat_lt
    have hc:=c.toNat_lt
    obtain ⟨hp,-⟩:=value_digit (n:=a.toNat/4) (by omega)
    obtain ⟨hq,-⟩:=value_digit (n:=a.toNat % 4*16+b.toNat/16) (by omega)
    obtain ⟨hr,-⟩:=value_digit (n:=b.toNat % 16*4+c.toNat/64) (by omega)
    obtain ⟨ht,hpad⟩:=value_digit (n:=c.toNat % 64) (by omega)
    have hfirst : a.toNat/4*4+(a.toNat % 4*16+b.toNat/16)/16=a.toNat:=by omega
    have hsecond : (a.toNat % 4*16+b.toNat/16) % 16*16+(b.toNat % 16*4+c.toNat/64)/4=b.toNat:=by omega
    have hthird : (b.toNat % 16*4+c.toNat/64) % 4*64+c.toNat % 64=c.toNat:=by omega
    simp only [encode,decode,hp,hq,hr,ht,if_neg hpad,ih,hfirst,hsecond,hthird,Option.bind_eq_bind,Option.bind_some,
      UInt8.ofNat_toNat,Option.pure_def]
  | case2 a b=>
    have ha:=a.toNat_lt
    have hb:=b.toNat_lt
    obtain ⟨hp,-⟩:=value_digit (n:=a.toNat/4) (by omega)
    obtain ⟨hq,-⟩:=value_digit (n:=a.toNat % 4*16+b.toNat/16) (by omega)
    obtain ⟨hr,hpad⟩:=value_digit (n:=b.toNat % 16*4) (by omega)
    have hfirst : a.toNat/4*4+(a.toNat % 4*16+b.toNat/16)/16=a.toNat:=by omega
    have hsecond : (a.toNat % 4*16+b.toNat/16) % 16*16+b.toNat % 16*4/4=b.toNat:=by omega
    simp only [encode,decode,hp,hq,hr,if_neg hpad,if_true,ne_eq,not_true_eq_false,if_false,hfirst,hsecond,
      Option.bind_eq_bind,Option.bind_some,UInt8.ofNat_toNat,Option.pure_def]
  | case3 a=>
    have ha:=a.toNat_lt
    obtain ⟨hp,-⟩:=value_digit (n:=a.toNat/4) (by omega)
    obtain ⟨hq,-⟩:=value_digit (n:=a.toNat % 4*16) (by omega)
    have hfirst : a.toNat/4*4+a.toNat % 4*16/16=a.toNat:=by omega
    simp only [encode,decode,hp,hq,if_true,ne_eq,not_true_eq_false,if_false,hfirst,Option.bind_eq_bind,
      Option.bind_some,UInt8.ofNat_toNat,Option.pure_def]
  | case4=>rfl

theorem length_encode (data : Bytes) : (encode data).length=(data.length+2)/3*4:=by
  induction data using encode.induct with
  | case1 a b c rest ih=>
    simp only [encode,List.length_cons,ih]
    omega
  | case2 a b=>simp [encode]
  | case3 a=>simp [encode]
  | case4=>rfl

example : encode [77,97,110,33]=[84,87,70,117,73,81,61,61]:=by decide

end CdcBadge.Base64
