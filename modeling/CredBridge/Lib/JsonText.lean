import CredBridge.Lib.Hex

/-! # The text of a JSON object

An object whose properties are texts or null, written as `JSON.stringify` writes it. Each piece can be read
back from the front of a text, so the text of an object determines its properties (`stringify_injective`). -/

namespace JsonText

/-- A character inside quotes: quotes, backslashes and control characters are escaped. -/
def escape (c : Char) : List Char :=
  if c = '"' then ['\\', '"']
  else if c = '\\' then ['\\', '\\']
  else if c = '\x08' then ['\\', 'b']
  else if c = '\t' then ['\\', 't']
  else if c = '\n' then ['\\', 'n']
  else if c = '\x0c' then ['\\', 'f']
  else if c = '\r' then ['\\', 'r']
  else if c.toNat < 0x20 then ['\\', 'u', '0', '0', Hex.digit (c.toNat / 16), Hex.digit (c.toNat % 16)]
  else [c]

/-- The character that an escape or a plain character stands for, and the text after it. -/
def unescape : List Char → Option (Char × List Char)
  | '\\' :: '"' :: r => some ('"', r)
  | '\\' :: '\\' :: r => some ('\\', r)
  | '\\' :: 'b' :: r => some ('\x08', r)
  | '\\' :: 't' :: r => some ('\t', r)
  | '\\' :: 'n' :: r => some ('\n', r)
  | '\\' :: 'f' :: r => some ('\x0c', r)
  | '\\' :: 'r' :: r => some ('\r', r)
  | '\\' :: 'u' :: '0' :: '0' :: h :: l :: r => some (Char.ofNat (16 * Hex.value h + Hex.value l), r)
  | c :: r => some (c, r)
  | [] => none

theorem unescape_control {n : Nat} (hn : n < 0x20) (r : List Char) :
    unescape (escape (Char.ofNat n) ++ r) = some (Char.ofNat n, r) := by
  interval_cases n <;> rfl

theorem escape_plain {c : Char} (hquote : c ≠ '"') (hbackslash : c ≠ '\\') (hplain : ¬c.toNat < 0x20) :
    escape c = [c] := by
  have hne : ∀ d : Char, d.toNat < 0x20 → c ≠ d := fun d hd he => hplain (he ▸ hd)
  simp [escape, hquote, hbackslash, hplain, hne '\x08' (by decide), hne '\t' (by decide), hne '\n' (by decide),
    hne '\x0c' (by decide), hne '\r' (by decide)]

theorem unescape_escape (c : Char) (r : List Char) : unescape (escape c ++ r) = some (c, r) := by
  by_cases hcontrol : c.toNat < 0x20
  · rw [← Char.ofNat_toNat c]
    exact unescape_control hcontrol r
  by_cases hquote : c = '"'
  · subst hquote
    rfl
  by_cases hbackslash : c = '\\'
  · subst hbackslash
    rfl
  rw [escape_plain hquote hbackslash hcontrol]
  show unescape (c :: r) = _
  unfold unescape
  split <;> simp_all

theorem escape_append_inj {c c' : Char} {r r' : List Char} (h : escape c ++ r = escape c' ++ r') : c = c' ∧ r = r' := by
  have hread := congrArg unescape h
  simpa only [unescape_escape, Option.some.injEq, Prod.mk.injEq] using hread

theorem escape_append_ne_quote {c : Char} {r r' : List Char} : escape c ++ r ≠ '"' :: r' := by
  intro h
  have hread : some (c, r) = some ('"', r') := (unescape_escape c r).symm.trans (congrArg unescape h)
  cases hread
  cases h

def quoted (s : String) : List Char := '"' :: s.toList.flatMap escape ++ ['"']

theorem flatMap_escape_inj {s s' r r' : List Char} (h : s.flatMap escape ++ '"' :: r = s'.flatMap escape ++ '"' :: r') :
    s = s' ∧ r = r' := by
  induction s generalizing s' with
  | nil =>
    cases s' with
    | nil => exact ⟨rfl, List.tail_eq_of_cons_eq h⟩
    | cons c' s' =>
      rw [List.flatMap_cons, List.append_assoc] at h
      exact absurd h.symm escape_append_ne_quote
  | cons c s ih =>
    cases s' with
    | nil =>
      rw [List.flatMap_cons, List.append_assoc] at h
      exact absurd h escape_append_ne_quote
    | cons c' s' =>
      rw [List.flatMap_cons, List.flatMap_cons, List.append_assoc, List.append_assoc] at h
      obtain ⟨rfl, htail⟩ := escape_append_inj h
      obtain ⟨rfl, hr⟩ := ih htail
      exact ⟨rfl, hr⟩

theorem quoted_append_inj {s s' : String} {r r' : List Char} (h : quoted s ++ r = quoted s' ++ r') : s = s' ∧ r = r' := by
  simp only [quoted, List.cons_append, List.append_assoc, List.nil_append, List.cons.injEq, true_and] at h
  obtain ⟨hs, hr⟩ := flatMap_escape_inj h
  exact ⟨String.toList_inj.mp hs, hr⟩

def value : Option String → List Char
  | none => "null".toList
  | some s => quoted s

theorem value_append_inj {v v' : Option String} {r r' : List Char} (h : value v ++ r = value v' ++ r') :
    v = v' ∧ r = r' := by
  cases v with
  | none =>
    cases v' with
    | none => exact ⟨rfl, List.append_cancel_left h⟩
    | some s' => cases h
  | some s =>
    cases v' with
    | none => cases h
    | some s' =>
      obtain ⟨rfl, hr⟩ := quoted_append_inj h
      exact ⟨rfl, hr⟩

def member (m : String × Option String) : List Char := quoted m.1 ++ ':' :: value m.2

theorem member_append_inj {m m' : String × Option String} {r r' : List Char} (h : member m ++ r = member m' ++ r') :
    m = m' ∧ r = r' := by
  simp only [member, List.append_assoc, List.cons_append] at h
  obtain ⟨hname, h⟩ := quoted_append_inj h
  obtain ⟨hvalue, hr⟩ := value_append_inj (List.tail_eq_of_cons_eq h)
  exact ⟨Prod.ext hname hvalue, hr⟩

def members : List (String × Option String) → List Char
  | [] => []
  | [m] => member m
  | m :: m' :: ms => member m ++ ',' :: members (m' :: ms)

def stringify (ms : List (String × Option String)) : List Char := '\x7b' :: members ms ++ ['\x7d']

theorem members_cons_ne {m : String × Option String} {ms : List (String × Option String)} {r r' : List Char} :
    members (m :: ms) ++ r ≠ '\x7d' :: r' := by
  intro h
  cases ms <;> cases h

theorem members_inj {ms ms' : List (String × Option String)} (h : members ms ++ ['\x7d'] = members ms' ++ ['\x7d']) :
    ms = ms' := by
  induction ms using members.induct generalizing ms' with
  | case1 =>
    cases ms' with
    | nil => rfl
    | cons m' ms' => exact absurd h.symm members_cons_ne
  | case2 m =>
    match ms', h with
    | [], h => exact absurd h members_cons_ne
    | [m'], h =>
      obtain ⟨rfl, -⟩ := member_append_inj h
      rfl
    | m' :: m'' :: ms'', h =>
      simp only [members, List.append_assoc, List.cons_append] at h
      cases (member_append_inj h).2
  | case3 m n ms ih =>
    match ms', h with
    | [], h => exact absurd h members_cons_ne
    | [m'], h =>
      simp only [members, List.append_assoc, List.cons_append] at h
      cases (member_append_inj h).2
    | m' :: m'' :: ms'', h =>
      simp only [members, List.append_assoc, List.cons_append] at h
      obtain ⟨rfl, htail⟩ := member_append_inj h
      exact congrArg (m :: ·) (ih (List.tail_eq_of_cons_eq htail))

/-- The text of an object determines its properties. -/
theorem stringify_injective : Function.Injective stringify := fun _ _ h => members_inj (List.tail_eq_of_cons_eq h)

end JsonText
