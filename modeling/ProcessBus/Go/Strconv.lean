import Mathlib.Tactic.Linarith

/-!
# Numbers as text

`strconv.ParseUint` and `strconv.Atoi`, digit by digit: a number that is too large ends the scan
before the digits after it are looked at.  `quote` is the verb `%q`.
-/

namespace ProcessBus.Go

namespace Strconv

/-- `strconv.ErrSyntax` and `strconv.ErrRange`. -/
inductive NumError
  | errSyntax
  | errRange
deriving DecidableEq, Repr

/-- The value of a digit; the digits after nine are letters. -/
def digit (c : Char) : Option ℕ :=
  if '0' ≤ c ∧ c ≤ '9' then some (c.toNat - '0'.toNat)
  else if 'a' ≤ c ∧ c ≤ 'z' then some (c.toNat - 'a'.toNat + 10)
  else if 'A' ≤ c ∧ c ≤ 'Z' then some (c.toNat - 'A'.toNat + 10)
  else none

/-- The loop over the digits, from the number `n` on. -/
def parseDigits (base greatest : ℕ) : ℕ → List Char → Except NumError ℕ
  | n, [] => .ok n
  | n, c :: cs =>
      match digit c with
      | none => .error .errSyntax
      | some d =>
          if base ≤ d then .error .errSyntax
          else if greatest < n * base + d then .error .errRange
          else parseDigits base greatest (n * base + d) cs

/-- `strconv.ParseUint`. -/
def parseUint (s : String) (base bits : ℕ) : Except NumError ℕ :=
  if s.toList = [] then .error .errSyntax else parseDigits base (2 ^ bits - 1) 0 s.toList

/-- The number that `strconv.ParseUint` returns beside its error. -/
def value (bits : ℕ) : Except NumError ℕ → ℕ
  | .ok n => n
  | .error .errSyntax => 0
  | .error .errRange => 2 ^ bits - 1

/-- The digits of a number after its sign. -/
def magnitude (cs : List Char) : Option ℕ :=
  if cs = [] then none else (parseDigits 10 (2 ^ 64 - 1) 0 cs).toOption

/-- `strconv.Atoi`. -/
def atoi (s : String) : Option ℤ :=
  match s.toList with
  | '-' :: cs => (magnitude cs).bind fun n ↦ if n ≤ 2 ^ 63 then some (-n) else none
  | '+' :: cs => (magnitude cs).bind fun n ↦ if n < 2 ^ 63 then some n else none
  | cs => (magnitude cs).bind fun n ↦ if n < 2 ^ 63 then some n else none

/-- The lower hexadecimal digits of a byte. -/
def hexByte (n : ℕ) : List Char := [Nat.digitChar (n / 16 % 16), Nat.digitChar (n % 16)]

/-- A character between quotes; from U+0080 on all count as printable. -/
def quoteChar (c : Char) : List Char :=
  if c = '"' ∨ c = '\\' then ['\\', c]
  else if c.toNat = 7 then ['\\', 'a']
  else if c.toNat = 8 then ['\\', 'b']
  else if c.toNat = 9 then ['\\', 't']
  else if c.toNat = 10 then ['\\', 'n']
  else if c.toNat = 11 then ['\\', 'v']
  else if c.toNat = 12 then ['\\', 'f']
  else if c.toNat = 13 then ['\\', 'r']
  else if c.toNat < 0x20 ∨ c.toNat = 0x7F then '\\' :: 'x' :: hexByte c.toNat
  else [c]

/-- `strconv.Quote`. -/
def quote (s : String) : String := .ofList ('"' :: s.toList.flatMap quoteChar ++ ['"'])

theorem parseDigits_le {base greatest n m : ℕ} {cs : List Char} (hn : n ≤ greatest)
    (h : parseDigits base greatest n cs = .ok m) : m ≤ greatest := by
  induction cs generalizing n with
  | nil =>
      cases h
      exact hn
  | cons c cs ih =>
      rw [parseDigits] at h
      cases hdigit : digit c with
      | none =>
          rw [hdigit] at h
          cases h
      | some d =>
          rw [hdigit] at h
          dsimp only at h
          split_ifs at h with hbase hgreatest
          exact ih (not_lt.mp hgreatest) h

/-- A number that is read fits in its bits. -/
theorem parseUint_le {s : String} {base bits n : ℕ} (h : parseUint s base bits = .ok n) :
    n ≤ 2 ^ bits - 1 := by
  rw [parseUint] at h
  split_ifs at h
  exact parseDigits_le (Nat.zero_le _) h

theorem digit_digitChar : ∀ d < 10, digit (id (Nat.digitChar d)) = some d := by decide

theorem digit_toUpper_digitChar : ∀ d < 16, digit (Nat.digitChar d).toUpper = some d := by decide

theorem parseDigits_append {base greatest n : ℕ} (cs cs' : List Char) :
    parseDigits base greatest n (cs ++ cs') =
      (parseDigits base greatest n cs).bind fun m ↦ parseDigits base greatest m cs' := by
  induction cs generalizing n with
  | nil => rfl
  | cons c cs ih =>
      rw [List.cons_append, parseDigits, parseDigits]
      cases digit c with
      | none => rfl
      | some d =>
          dsimp only
          split_ifs
          · rfl
          · rfl
          · exact ih

/-- The digits of a number are read as this number, or as too large. -/
theorem eq_of_parseDigits {base greatest n m : ℕ} {f : Char → Char} (hbase : 1 < base)
    (hf : ∀ d < base, digit (f (Nat.digitChar d)) = some d)
    (h : parseDigits base greatest 0 ((Nat.toDigits base n).map f) = .ok m) : m = n := by
  induction n using Nat.strong_induction_on generalizing m with
  | _ n ih =>
      rcases Nat.lt_or_ge n base with hlt | hge
      · rw [Nat.toDigits_of_lt_base hlt, List.map_singleton, parseDigits, hf n hlt] at h
        dsimp only at h
        split_ifs at h
        rw [parseDigits, Nat.zero_mul, Nat.zero_add] at h
        exact (Except.ok.inj h).symm
      · rw [Nat.toDigits_of_base_le hbase hge, List.map_append, parseDigits_append] at h
        cases hinit : parseDigits base greatest 0 ((Nat.toDigits base (n / base)).map f) with
        | error err =>
            rw [hinit] at h
            cases h
        | ok k =>
            have hk : k = n / base := ih (n / base) (Nat.div_lt_self (by omega) hbase) hinit
            have hmod : n % base < base := Nat.mod_lt n (by omega)
            rw [hinit] at h
            change parseDigits base greatest k _ = _ at h
            rw [List.map_singleton, parseDigits, hf _ hmod] at h
            dsimp only at h
            split_ifs at h
            rw [parseDigits, hk, Nat.div_add_mod'] at h
            exact (Except.ok.inj h).symm

theorem parseDigits_zeros {base greatest k : ℕ} (hbase : 0 < base) (cs : List Char) :
    parseDigits base greatest 0 (List.replicate k '0' ++ cs) = parseDigits base greatest 0 cs := by
  induction k with
  | zero => rfl
  | succ k ih =>
      have hzero : digit '0' = some 0 := rfl
      rw [List.replicate_succ, List.cons_append, parseDigits, hzero]
      dsimp only
      rw [if_neg (not_le.mpr hbase), if_neg (by simp), Nat.zero_mul, Nat.zero_add]
      exact ih

theorem toList_toString (n : ℕ) : (toString n).toList = Nat.toDigits 10 n := by
  rw [Nat.toString_eq_repr, Nat.toList_repr]

/-- A decimal number is read back. -/
theorem eq_of_parseUint_toString {n m bits : ℕ} (h : parseUint (toString n) 10 bits = .ok m) :
    m = n := by
  rw [parseUint, toList_toString, if_neg Nat.toDigits_ne_nil] at h
  rw [← List.map_id (Nat.toDigits 10 n)] at h
  exact eq_of_parseDigits (by decide) digit_digitChar h

/-- A decimal number is read back with `strconv.Atoi`. -/
theorem eq_of_atoi_toString {n : ℕ} {m : ℤ} (h : atoi (toString n) = some m) : m = n := by
  have hdigit : ∀ c ∈ Nat.toDigits 10 n, c.isDigit := fun c hc ↦
    Nat.isDigit_of_mem_toDigits (by decide) (by decide) hc
  have hplain : atoi (toString n) =
      (magnitude (Nat.toDigits 10 n)).bind fun n ↦ if n < 2 ^ 63 then some (n : ℤ) else none := by
    rw [atoi, toList_toString]
    obtain ⟨c, cs, hcs⟩ := List.exists_cons_of_ne_nil (Nat.toDigits_ne_nil (n := n) (b := 10))
    rw [hcs] at hdigit ⊢
    have hc := hdigit c List.mem_cons_self
    split
    · rename_i he
      cases he
      exact absurd hc (by decide)
    · rename_i he
      cases he
      exact absurd hc (by decide)
    · rfl
  rw [hplain] at h
  obtain ⟨k, hk, hm⟩ := Option.bind_eq_some_iff.mp h
  split_ifs at hm
  cases hm
  rw [magnitude, if_neg Nat.toDigits_ne_nil] at hk
  have hparse : parseDigits 10 (2 ^ 64 - 1) 0 ((Nat.toDigits 10 n).map id) = .ok k := by
    rw [List.map_id]
    cases hd : parseDigits 10 (2 ^ 64 - 1) 0 (Nat.toDigits 10 n) with
    | error err =>
        rw [hd] at hk
        cases hk
    | ok k' =>
        rw [hd] at hk
        cases hk
        rfl
  rw [eq_of_parseDigits (by decide) digit_digitChar hparse]

end Strconv

/-! ## The octets of a text -/

theorem toList_loop (bs : ByteArray) (i : ℕ) (r : List UInt8) :
    ByteArray.toList.loop bs i r = r.reverse ++ bs.data.toList.drop i := by
  fun_induction ByteArray.toList.loop bs i r with
  | case1 i r h ih =>
      have hlt : i < bs.data.toList.length := h
      have hget : bs.get! i = bs.data.toList.get ⟨i, hlt⟩ := by
        rw [ByteArray.get!]
        exact getElem!_pos bs.data i h
      rw [ih, List.reverse_cons, List.append_assoc, List.drop_eq_getElem_cons hlt, hget]
      rfl
  | case2 i r h =>
      rw [List.drop_eq_nil_of_le (not_lt.mp h), List.append_nil]

theorem toList_eq_data (bs : ByteArray) : bs.toList = bs.data.toList := by
  rw [ByteArray.toList, toList_loop, List.reverse_nil, List.nil_append, List.drop_zero]

theorem utf8EncodeChar_ascii {c : Char} (h : c.toNat < 128) :
    String.utf8EncodeChar c = [c.toNat.toUInt8] := by
  have hsize : c.utf8Size = 1 := by
    rw [Char.utf8Size_eq_one_iff, UInt32.le_iff_toNat_le]
    exact Nat.le_of_lt_succ h
  rw [String.utf8EncodeChar_eq_singleton hsize]
  rfl

theorem toUTF8_ofList {cs : List Char} (h : ∀ c ∈ cs, c.toNat < 128) :
    (String.ofList cs).toUTF8.toList = cs.map fun c ↦ c.toNat.toUInt8 := by
  rw [toList_eq_data, String.toUTF8, String.toByteArray_ofList, List.utf8Encode,
    List.data_toByteArray]
  induction cs with
  | nil => rfl
  | cons c cs ih =>
      obtain ⟨hc, hcs⟩ := List.forall_mem_cons.mp h
      rw [List.flatMap_cons, utf8EncodeChar_ascii hc, List.map_cons]
      exact congrArg (c.toNat.toUInt8 :: ·) (ih hcs)

end ProcessBus.Go
