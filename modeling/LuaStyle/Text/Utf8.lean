/-
This file reads bytes as UTF-8.

Writing a character as bytes is core's `String.utf8EncodeChar`. Reading goes the other way by
guessing and checking: the first bytes are put together into a code point without asking whether
they are well formed, and the guess counts only if writing that character gives back the very bytes
that were read. So a character is read exactly when the bytes start with its written form, and
overlong forms, surrogates and stray continuation bytes need no rule of their own.
-/

namespace LuaStyle.Utf8

/-- The bytes of a text. -/
def encode (text : List Char) : List UInt8 :=
  text.flatMap String.utf8EncodeChar

/-- The code point that the first bytes would stand for if they were well formed. The high bits of
the first byte give the number of bytes to read, and each further byte contributes six bits. -/
def guess : List UInt8 → Nat
  | [] => 0
  | lead :: rest =>
    let further := fun index => (rest.getD index 0).toNat % 64
    if lead < 0x80 then lead.toNat
    else if lead < 0xE0 then lead.toNat % 32 * 64 + further 0
    else if lead < 0xF0 then (lead.toNat % 16 * 64 + further 0) * 64 + further 1
    else ((lead.toNat % 8 * 64 + further 0) * 64 + further 1) * 64 + further 2

/-- The character whose written form the bytes start with, if there is one. -/
def first? (bytes : List UInt8) : Option Char :=
  let c := Char.ofNat (guess bytes)
  if String.utf8EncodeChar c <+: bytes then some c else none

/-- The text that the bytes are the written form of, if there is one. -/
def decode? (bytes : List UInt8) : Option (List Char) :=
  match bytes with
  | [] => some []
  | byte :: rest =>
    (first? (byte :: rest)).bind fun c =>
      (decode? (rest.drop (c.utf8Size - 1))).map (c :: ·)
termination_by bytes.length
decreasing_by
  simp only [List.length_drop, List.length_cons]
  omega

/-! ### What is written is read back -/

/-- The guess is right where the bytes do start with a written character. -/
theorem guess_utf8EncodeChar (c : Char) (rest : List UInt8) :
    guess (String.utf8EncodeChar c ++ rest) = c.toNat := by
  have bound : c.toNat ≤ 0x10FFFF := by
    rcases c.valid with low | ⟨_, high⟩
    · exact Nat.le_of_lt (Nat.lt_trans low (by decide))
    · exact Nat.le_of_lt_succ high
  have same : c.val.toNat = c.toNat := rfl
  unfold String.utf8EncodeChar
  simp only [same]
  split
  · simp [guess, UInt8.lt_iff_toNat_lt]
    split <;> omega
  · split
    · simp [guess, UInt8.lt_iff_toNat_lt]
      repeat' split
      all_goals omega
    · split
      · simp [guess, UInt8.lt_iff_toNat_lt]
        repeat' split
        all_goals omega
      · simp [guess, UInt8.lt_iff_toNat_lt]
        repeat' split
        all_goals omega

/-- A written character is read, whatever follows it. -/
theorem first?_utf8EncodeChar (c : Char) (rest : List UInt8) :
    first? (String.utf8EncodeChar c ++ rest) = some c := by
  simp [first?, guess_utf8EncodeChar, Char.ofNat_toNat]

/-- A written text is read. -/
theorem decode?_encode (text : List Char) : decode? (encode text) = some text := by
  induction text with
  | nil => simp [encode, decode?]
  | cons c rest inductionHypothesis =>
    have length := String.length_utf8EncodeChar c
    have positive := Char.utf8Size_pos c
    have firstRead := first?_utf8EncodeChar c (encode rest)
    rw [show encode (c :: rest) = String.utf8EncodeChar c ++ encode rest from rfl]
    match written : String.utf8EncodeChar c with
    | [] => simp [written] at length; omega
    | byte :: bytes =>
      rw [written] at firstRead length
      have size : c.utf8Size - 1 = bytes.length := by simp at length; omega
      rw [List.cons_append, decode?, ← List.cons_append, firstRead, Option.bind_some, size,
        List.drop_left, inductionHypothesis, Option.map_some]

end LuaStyle.Utf8
