import ArxRuna.Library.Aead
namespace ArxRuna.Library.Base64
open Aead

-- The standard alphabet, padded, without spare bits in the last symbol.
def symbol (n : Nat) : Char :=
  if n < 26 then Char.ofNat (65 + n)
  else if n < 52 then Char.ofNat (71 + n)
  else if n < 62 then Char.ofNat (n - 4)
  else if n = 62 then '+' else '/'

def symbolValue (c : Char) : Option Nat :=
  if 65 ≤ c.toNat ∧ c.toNat ≤ 90 then some (c.toNat - 65)
  else if 97 ≤ c.toNat ∧ c.toNat ≤ 122 then some (c.toNat - 71)
  else if 48 ≤ c.toNat ∧ c.toNat ≤ 57 then some (c.toNat + 4)
  else if c = '+' then some 62
  else if c = '/' then some 63 else none

def encodeChars : Bytes → List Char
  | [] => []
  | [a] => [symbol (a.toNat / 4),symbol (a.toNat % 4 * 16),'=','=']
  | [a,b] => [symbol (a.toNat / 4),symbol (a.toNat % 4 * 16 + b.toNat / 16),symbol (b.toNat % 16 * 4),'=']
  | a :: b :: c :: rest =>
    symbol (a.toNat / 4) :: symbol (a.toNat % 4 * 16 + b.toNat / 16) ::
      symbol (b.toNat % 16 * 4 + c.toNat / 64) :: symbol (c.toNat % 64) :: encodeChars rest

def decodeOne (w x : Char) : Option Bytes := do
  let w ← symbolValue w
  let x ← symbolValue x
  if x % 16 = 0 then some [UInt8.ofNat (w * 4 + x / 16)] else none

def decodeTwo (w x y : Char) : Option Bytes := do
  let w ← symbolValue w
  let x ← symbolValue x
  let y ← symbolValue y
  if y % 4 = 0 then some [UInt8.ofNat (w * 4 + x / 16),UInt8.ofNat (x % 16 * 16 + y / 4)] else none

def decodeThree (w x y z : Char) : Option Bytes := do
  let w ← symbolValue w
  let x ← symbolValue x
  let y ← symbolValue y
  let z ← symbolValue z
  some [UInt8.ofNat (w * 4 + x / 16),UInt8.ofNat (x % 16 * 16 + y / 4),UInt8.ofNat (y % 4 * 64 + z)]

def decodeChars : List Char → Option Bytes
  | [] => some []
  | [w,x,y,z] =>
    if z = '=' then if y = '=' then decodeOne w x else decodeTwo w x y else decodeThree w x y z
  | w :: x :: y :: z :: rest => do
    let front ← decodeThree w x y z
    let back ← decodeChars rest
    some (front ++ back)
  | _ => none

def encodeBase64 (bytes : Bytes) : String := String.ofList (encodeChars bytes)

def decodeBase64 (text : String) : Option Bytes := decodeChars text.toList

theorem value_symbol : ∀ n < 64, symbolValue (symbol n) = some n := by decide

theorem symbol_not_padding : ∀ n < 64, symbol n ≠ '=' := by decide

theorem byte_eq {n : Nat} (a : UInt8) (same : n = a.toNat) : UInt8.ofNat n = a := by
  rw [same,UInt8.ofNat_toNat]

theorem decode_one (a : UInt8) :
    decodeOne (symbol (a.toNat / 4)) (symbol (a.toNat % 4 * 16)) = some [a] := by
  have bound := a.toNat_lt
  rw [decodeOne,value_symbol _ (by omega),value_symbol _ (by omega)]
  simp only [Option.bind_eq_bind,Option.bind_some]
  rw [if_pos (by omega),byte_eq a (by omega)]

theorem decode_two (a b : UInt8) :
    decodeTwo (symbol (a.toNat / 4)) (symbol (a.toNat % 4 * 16 + b.toNat / 16)) (symbol (b.toNat % 16 * 4)) =
      some [a,b] := by
  have bound := a.toNat_lt
  have bound' := b.toNat_lt
  rw [decodeTwo,value_symbol _ (by omega),value_symbol _ (by omega),value_symbol _ (by omega)]
  simp only [Option.bind_eq_bind,Option.bind_some]
  rw [if_pos (by omega),byte_eq a (by omega),byte_eq b (by omega)]

theorem decode_three (a b c : UInt8) :
    decodeThree (symbol (a.toNat / 4)) (symbol (a.toNat % 4 * 16 + b.toNat / 16))
      (symbol (b.toNat % 16 * 4 + c.toNat / 64)) (symbol (c.toNat % 64)) = some [a,b,c] := by
  have bound := a.toNat_lt
  have bound' := b.toNat_lt
  have bound'' := c.toNat_lt
  rw [decodeThree,value_symbol _ (by omega),value_symbol _ (by omega),value_symbol _ (by omega),
    value_symbol _ (by omega)]
  simp only [Option.bind_eq_bind,Option.bind_some]
  rw [byte_eq a (by omega),byte_eq b (by omega),byte_eq c (by omega)]

-- By the groups of three the encoder cuts; the last group of a text is decoded
-- by the branch for four symbols, every other one by the general branch.
theorem decode_encode_chars (bytes : Bytes) : decodeChars (encodeChars bytes) = some bytes := by
  induction bytes using encodeChars.induct with
  | case1 => rfl
  | case2 a => exact decode_one a
  | case3 a b =>
    have bound := b.toNat_lt
    simp only [encodeChars,decodeChars,if_true,if_neg (symbol_not_padding (b.toNat % 16 * 4) (by omega))]
    exact decode_two a b
  | case4 a b c rest ih =>
    have bound := c.toNat_lt
    simp only [encodeChars]
    cases rest with
    | nil =>
      simp only [encodeChars,decodeChars,if_neg (symbol_not_padding (c.toNat % 64) (by omega))]
      exact decode_three a b c
    | cons d more =>
      obtain ⟨first,others,cut⟩ : ∃ first others, encodeChars (d :: more) = first :: others := by
        match more with
        | [] => exact ⟨_,_,rfl⟩
        | [_] => exact ⟨_,_,rfl⟩
        | _ :: _ :: _ => exact ⟨_,_,rfl⟩
      rw [cut] at ih ⊢
      simp only [decodeChars,decode_three,ih,Option.bind_eq_bind,Option.bind_some,List.cons_append,
        List.nil_append]

@[simp] theorem decode_encode (bytes : Bytes) : decodeBase64 (encodeBase64 bytes) = some bytes := by
  rw [decodeBase64,encodeBase64,String.toList_ofList,decode_encode_chars]

end ArxRuna.Library.Base64
