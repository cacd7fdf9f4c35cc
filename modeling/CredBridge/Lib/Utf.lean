import Mathlib

/-! # Text and bytes

UTF-8 as a decoder reads it that never fails: bytes that belong to no character become U+FFFD, one for each
maximal prefix of a character. -/

namespace Utf

def encodeChars (cs : List Char) : List UInt8 := cs.flatMap String.utf8EncodeChar

def encode (s : String) : List UInt8 := encodeChars s.toList

theorem encodeChars_injective : Function.Injective encodeChars := by
  intro cs cs' h
  have hbytes : cs.utf8Encode = cs'.utf8Encode := congrArg List.toByteArray h
  have hdecode := congrArg ByteArray.utf8Decode? hbytes
  simp only [List.utf8Decode?_utf8Encode, Option.some.injEq] at hdecode
  exact List.toArray_inj hdecode

theorem encode_inj {s s' : String} : encode s = encode s' ↔ s = s' :=
  ⟨fun h => String.toList_inj.mp (encodeChars_injective h), congrArg encode⟩

theorem encode_append (s s' : String) : encode (s ++ s') = encode s ++ encode s' := by
  rw [encode, encode, encode, String.toList_append, encodeChars, List.flatMap_append]
  rfl

/-- A decoder in the middle of a character: the bytes still needed, the range of the next one, and the code
    point read so far. -/
structure Decoder where
  needed : Nat
  lower : Nat
  upper : Nat
  codePoint : Nat

def Decoder.start : Decoder := ⟨0, 0x80, 0xBF, 0⟩

def replacement : Char := Char.ofNat 0xFFFD

def lead (b : Nat) : List Char × Decoder :=
  if b < 0x80 then
    ([Char.ofNat b], .start)
  else if 0xC2 ≤ b ∧ b ≤ 0xDF then
    ([], ⟨1, 0x80, 0xBF, b - 0xC0⟩)
  else if 0xE0 ≤ b ∧ b ≤ 0xEF then
    ([], ⟨2, if b = 0xE0 then 0xA0 else 0x80, if b = 0xED then 0x9F else 0xBF, b - 0xE0⟩)
  else if 0xF0 ≤ b ∧ b ≤ 0xF4 then
    ([], ⟨3, if b = 0xF0 then 0x90 else 0x80, if b = 0xF4 then 0x8F else 0xBF, b - 0xF0⟩)
  else
    ([replacement], .start)

/-- What the next byte gives: it starts a character, continues one, or breaks one off and is read again. -/
def Decoder.next (d : Decoder) (b : Nat) : List Char × Decoder :=
  match d.needed with
  | 0 => lead b
  | n + 1 =>
    if d.lower ≤ b ∧ b ≤ d.upper then
      let codePoint := d.codePoint * 0x40 + (b - 0x80)
      if n = 0 then ([Char.ofNat codePoint], .start) else ([], ⟨n, 0x80, 0xBF, codePoint⟩)
    else
      (replacement :: (lead b).1, (lead b).2)

def decodeFrom (d : Decoder) : List UInt8 → List Char
  | [] => if d.needed = 0 then [] else [replacement]
  | b :: bs => (d.next b.toNat).1 ++ decodeFrom (d.next b.toNat).2 bs

def decode (bytes : List UInt8) : String := String.ofList (decodeFrom .start bytes)

/-! ### Reading what was encoded -/

theorem toNat_ofNat {n : Nat} (h : n < 256) : (UInt8.ofNat n).toNat = n := by
  rw [UInt8.toNat_ofNat', Nat.mod_eq_of_lt h]

section Reading
variable {d : Decoder} {b n lower upper codePoint : Nat} {bs : List UInt8}

/-- What a byte at the start of a character gives. -/
theorem decodeFrom_lead (hb : b < 256) :
    decodeFrom .start (UInt8.ofNat b :: bs) = (lead b).1 ++ decodeFrom (lead b).2 bs := by
  rw [decodeFrom, toNat_ofNat hb]
  rfl

theorem decodeFrom_inner (hb : lower ≤ b ∧ b ≤ upper) (hbyte : b < 256) :
    decodeFrom ⟨n + 2, lower, upper, codePoint⟩ (UInt8.ofNat b :: bs) =
      decodeFrom ⟨n + 1, 0x80, 0xBF, codePoint * 0x40 + (b - 0x80)⟩ bs := by
  simp [decodeFrom, Decoder.next, toNat_ofNat hbyte, hb]

theorem decodeFrom_last (hb : lower ≤ b ∧ b ≤ upper) (hbyte : b < 256) :
    decodeFrom ⟨1, lower, upper, codePoint⟩ (UInt8.ofNat b :: bs) =
      Char.ofNat (codePoint * 0x40 + (b - 0x80)) :: decodeFrom .start bs := by
  simp [decodeFrom, Decoder.next, toNat_ofNat hbyte, hb]

end Reading

/-- A decoder at the start of a character reads one that was encoded, and is at the start again. -/
theorem decodeFrom_encodeChar (c : Char) (bs : List UInt8) :
    decodeFrom .start (String.utf8EncodeChar c ++ bs) = c :: decodeFrom .start bs := by
  have hvalid : c.toNat < 0xD800 ∨ 0xDFFF < c.toNat ∧ c.toNat < 0x110000 := c.valid
  have hchar : ∀ n, n = c.toNat → Char.ofNat n = c := fun n hn => hn ▸ Char.ofNat_toNat c
  unfold String.utf8EncodeChar
  rw [show c.val.toNat = c.toNat from rfl]
  generalize c.toNat = n at *
  simp only
  split
  · rw [List.cons_append, List.nil_append, decodeFrom_lead (by omega), lead, if_pos (by omega), hchar n rfl]
    rfl
  · split
    · rw [List.cons_append, List.cons_append, List.nil_append, decodeFrom_lead (by omega), lead, if_neg (by omega),
        if_pos (by omega), List.nil_append, decodeFrom_last (by omega) (by omega), hchar _ (by omega)]
    · split
      · rw [List.cons_append, List.cons_append, List.cons_append, List.nil_append, decodeFrom_lead (by omega), lead,
          if_neg (by omega), if_neg (by omega), if_pos (by omega), List.nil_append, decodeFrom_inner ?_ (by omega),
          decodeFrom_last (by omega) (by omega), hchar _ (by omega)]
        split <;> split <;> omega
      · rw [List.cons_append, List.cons_append, List.cons_append, List.cons_append, List.nil_append,
          decodeFrom_lead (by omega), lead, if_neg (by omega), if_neg (by omega), if_neg (by omega), if_pos (by omega),
          List.nil_append, decodeFrom_inner ?_ (by omega), decodeFrom_inner (by omega) (by omega),
          decodeFrom_last (by omega) (by omega), hchar _ (by omega)]
        split <;> split <;> omega

theorem decode_encode (s : String) : decode (encode s) = s := by
  have hchars : ∀ cs, decodeFrom .start (encodeChars cs) = cs := by
    intro cs
    induction cs with
    | nil => rfl
    | cons c cs ih => rw [encodeChars, List.flatMap_cons, decodeFrom_encodeChar, ← encodeChars, ih]
  rw [decode, encode, hchars, String.ofList_toList]

/-- The UTF-16 units of a character: those beyond U+FFFF have two. -/
def units (c : Char) : List Nat :=
  if c.toNat < 0x10000 then [c.toNat]
  else [0xD800 + (c.toNat - 0x10000) / 0x400, 0xDC00 + (c.toNat - 0x10000) % 0x400]

def utf16 (cs : List Char) : List Nat := cs.flatMap units

theorem units_of_ascii {c : Char} (h : c.toNat < 128) : units c = [c.toNat] := if_pos (Nat.lt_trans h (by decide))

theorem utf16_append (cs cs' : List Char) : utf16 (cs ++ cs') = utf16 cs ++ utf16 cs' := List.flatMap_append

theorem utf16_of_ascii {cs : List Char} (h : ∀ c ∈ cs, c.toNat < 128) : utf16 cs = cs.map Char.toNat := by
  induction cs with
  | nil => rfl
  | cons c cs ih =>
    rw [utf16, List.flatMap_cons, units_of_ascii (h c List.mem_cons_self), ← utf16,
      ih fun d hd => h d (List.mem_cons_of_mem c hd)]
    rfl

def utf16Length (s : String) : Nat := (s.toList.map fun c => if c.toNat < 0x10000 then 1 else 2).sum

def isAscii (s : String) : Bool := s.toList.all fun c => decide (c.toNat < 128)

theorem utf8Size_eq (c : Char) : c.utf8Size =
    if c.toNat ≤ 0x7F then 1 else if c.toNat ≤ 0x7FF then 2 else if c.toNat ≤ 0xFFFF then 3 else 4 := by
  unfold Char.utf8Size
  simp only [UInt32.le_iff_toNat_le]
  rfl

/-- A text is as long in bytes as in UTF-16 units only if it is in ASCII; any other one is longer in bytes. -/
theorem length_encode_eq_iff (s : String) : (encode s).length = utf16Length s ↔ isAscii s = true := by
  have hchar : ∀ c : Char, (if c.toNat < 0x10000 then 1 else 2) ≤ c.utf8Size ∧
      (c.utf8Size = (if c.toNat < 0x10000 then 1 else 2) ↔ c.toNat < 128) := by
    intro c
    rw [utf8Size_eq]
    constructor
    · grind
    · grind
  have hchars : ∀ cs : List Char, (cs.map fun c => if c.toNat < 0x10000 then 1 else 2).sum ≤ (encodeChars cs).length ∧
      ((encodeChars cs).length = (cs.map fun c => if c.toNat < 0x10000 then 1 else 2).sum ↔
        cs.all (fun c => decide (c.toNat < 128)) = true) := by
    intro cs
    induction cs with
    | nil => simp [encodeChars]
    | cons c cs ih =>
      obtain ⟨hle, heq⟩ := hchar c
      rw [encodeChars, List.flatMap_cons, List.length_append, String.length_utf8EncodeChar, ← encodeChars, List.map_cons,
        List.sum_cons, List.all_cons, Bool.and_eq_true, decide_eq_true_iff, ← heq, ← ih.2]
      omega
  exact (hchars s.toList).2

theorem utf16Length_of_ascii {s : String} (h : isAscii s = true) : utf16Length s = s.toList.length := by
  rw [isAscii, List.all_eq_true] at h
  unfold utf16Length
  generalize s.toList = cs at h
  induction cs with
  | nil => rfl
  | cons c cs ih =>
    have hc : c.toNat < 0x10000 := Nat.lt_trans (of_decide_eq_true (h c List.mem_cons_self)) (by decide)
    rw [List.map_cons, List.sum_cons, if_pos hc, ih fun d hd => h d (List.mem_cons_of_mem c hd), List.length_cons,
      Nat.add_comm]

example : decodeFrom .start [0xE2, 0x82, 0xC3, 0xA9] = [replacement, 'é'] := by decide

end Utf
