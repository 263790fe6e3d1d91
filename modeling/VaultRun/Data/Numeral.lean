import Mathlib.Algebra.Order.Field.Rat
import Mathlib.Data.List.TakeWhile
import Mathlib.Tactic.NormNum

/-!
The number that a string denotes in the language's own grammar (blanks around it, a sign, a fraction, an exponent,
other bases, `Infinity`), exactly and rounded to a double.
-/

namespace VaultRun.Data.Numeral

/-- A number, its zero without a sign. -/
inductive Number
  | nan
  | infinite (negative : Bool)
  | finite (q : ℚ)
  deriving DecidableEq

def blank (c : Char) : Bool :=
  c.toNat ∈ [0x9, 0xA, 0xB, 0xC, 0xD, 0x20, 0xA0, 0x1680, 0x2028, 0x2029, 0x202F, 0x205F, 0x3000, 0xFEFF] ||
    (0x2000 ≤ c.toNat && c.toNat ≤ 0x200A)

def trim (cs : List Char) : List Char := ((cs.dropWhile blank).reverse.dropWhile blank).reverse

def isDigit (c : Char) : Bool := 0x30 ≤ c.toNat && c.toNat ≤ 0x39

def allDigits (cs : List Char) : Bool := cs ≠ [] && cs.all isDigit

/-- The value of a digit of a base up to sixteen, in either case. -/
def digit (base : ℕ) (c : Char) : Option ℕ :=
  let n := c.toNat
  let value :=
    if 0x30 ≤ n ∧ n ≤ 0x39 then some (n - 0x30)
    else if 0x41 ≤ n ∧ n ≤ 0x46 then some (n - 0x41 + 10)
    else if 0x61 ≤ n ∧ n ≤ 0x66 then some (n - 0x61 + 10)
    else none
  value.filter (· < base)

def decimal (cs : List Char) : ℕ := cs.foldl (fun n c => 10 * n + (c.toNat - 0x30)) 0

def inBase (base : ℕ) (cs : List Char) : Option ℕ :=
  if cs = [] then none
  else cs.foldl (fun acc c => acc.bind fun n => (digit base c).map (base * n + ·)) (some 0)

def power (base : ℕ) : ℤ → ℚ
  | .ofNat k => ((base ^ k : ℕ) : ℚ)
  | .negSucc k => 1 / ((base ^ (k + 1) : ℕ) : ℚ)

def exponent : List Char → Option ℤ
  | [] => some 0
  | c :: cs =>
      if c ≠ 'e' ∧ c ≠ 'E' then none
      else
        match cs with
        | '+' :: ds => if allDigits ds then some (decimal ds) else none
        | '-' :: ds => if allDigits ds then some (-(decimal ds : ℤ)) else none
        | ds => if allDigits ds then some (decimal ds) else none

def unsignedDecimal (cs : List Char) : Option Number :=
  if cs = "Infinity".toList then some (.infinite false)
  else
    let whole := cs.takeWhile isDigit
    match cs.dropWhile isDigit with
    | '.' :: rest =>
        let fraction := rest.takeWhile isDigit
        if whole = [] ∧ fraction = [] then none
        else
          (exponent (rest.dropWhile isDigit)).map fun e =>
            .finite (decimal (whole ++ fraction) * power 10 (e - fraction.length))
    | rest => if whole = [] then none else (exponent rest).map fun e => .finite (decimal whole * power 10 e)

def Number.neg : Number → Number
  | .nan => .nan
  | .infinite negative => .infinite !negative
  | .finite q => .finite (-q)

def signedDecimal : List Char → Option Number
  | '+' :: cs => unsignedDecimal cs
  | '-' :: cs => (unsignedDecimal cs).map .neg
  | cs => unsignedDecimal cs

/-- What a string without blanks around it denotes; nothing at all denotes zero. -/
def literal (cs : List Char) : Number :=
  let nonDecimal (base : ℕ) (ds : List Char) : Number := ((inBase base ds).map fun n => .finite n).getD .nan
  match cs with
  | [] => .finite 0
  | '0' :: 'b' :: ds | '0' :: 'B' :: ds => nonDecimal 2 ds
  | '0' :: 'o' :: ds | '0' :: 'O' :: ds => nonDecimal 8 ds
  | '0' :: 'x' :: ds | '0' :: 'X' :: ds => nonDecimal 16 ds
  | _ => (signedDecimal cs).getD .nan

def denotes (v : String) : Number := literal (trim v.toList)

/-- The nearest integer, to an even one where two are as near. -/
def nearest (q : ℚ) : ℤ :=
  let below := q.floor
  let rest := q - below
  if rest < 1 / 2 then below
  else if 1 / 2 < rest then below + 1
  else if below % 2 = 0 then below
  else below + 1

def leading (q : ℚ) : ℤ :=
  let e : ℤ := (q.num.natAbs.log2 : ℤ) - (q.den.log2 : ℤ)
  if power 2 e ≤ q then e else e - 1

/-- The nearest double of a positive rational: 53 bits, the last of them at `2^-1074` or above, below `2^1024`. -/
def roundPositive (q : ℚ) : Number :=
  let unit := max (leading q - 52) (-1074)
  let rounded := (nearest (q / power 2 unit) : ℚ) * power 2 unit
  if rounded < power 2 1024 then .finite rounded else .infinite false

def Number.round : Number → Number
  | .finite q => if q = 0 then .finite 0 else if 0 < q then roundPositive q else (roundPositive (-q)).neg
  | x => x

def toNumber (v : String) : Number := (denotes v).round

def Number.positive : Number → Bool
  | .nan => false
  | .infinite negative => !negative
  | .finite q => 0 < q

/-- `BigInt(x)`, which throws unless `x` is an integer. -/
def Number.toBigInt : Number → Except Unit ℤ
  | .finite q => if q.den = 1 then .ok q.num else .error ()
  | _ => .error ()

def ofDigits (v : String) : ℤ := decimal v.toList

/-- `BigInt(v)` of any string, which throws unless `v` is in the grammar of the integers. -/
def stringToBigInt (v : String) : Except Unit ℤ :=
  let integer (n : Option ℕ) : Except Unit ℤ := n.elim (.error ()) fun n => .ok n
  match trim v.toList with
  | [] => .ok 0
  | '0' :: 'b' :: ds | '0' :: 'B' :: ds => integer (inBase 2 ds)
  | '0' :: 'o' :: ds | '0' :: 'O' :: ds => integer (inBase 8 ds)
  | '0' :: 'x' :: ds | '0' :: 'X' :: ds => integer (inBase 16 ds)
  | '+' :: ds => if allDigits ds then .ok (decimal ds) else .error ()
  | '-' :: ds => if allDigits ds then .ok (-(decimal ds : ℤ)) else .error ()
  | ds => if allDigits ds then .ok (decimal ds) else .error ()

def Number.isInteger : Number → Bool
  | .finite q => q.den = 1
  | .nan | .infinite _ => false

def Number.le : Number → Number → Bool
  | .nan, _ | _, .nan => false
  | .infinite true, _ | _, .infinite false => true
  | .infinite false, _ | _, .infinite true => false
  | .finite q, .finite r => q ≤ r

example : toNumber " 1e3\n" = .finite 1000 := by decide +kernel
example : toNumber "0.1" ≠ denotes "0.1" := by decide +kernel
example : toNumber "0x1F" = .finite 31 := by decide +kernel
example : toNumber "9007199254740993" = .finite 9007199254740992 := by decide +kernel
example : toNumber "1e400" = .infinite false := by decide +kernel
example : toNumber "1_000" = .nan := by decide +kernel
example : stringToBigInt " 0x1F\n" = .ok 31 := by decide +kernel
example : stringToBigInt "1e3" = .error () := by decide +kernel

variable {cs : List Char} {c : Char} {v : String} {x : Number} {n : ℤ}

lemma not_blank_of_digit (h : isDigit c = true) : blank c = false := by
  simp only [isDigit, Bool.and_eq_true, decide_eq_true_eq] at h
  simp only [blank, Bool.or_eq_false_iff, Bool.and_eq_false_iff, decide_eq_false_iff_not, List.mem_cons,
    List.not_mem_nil, not_or, not_false_eq_true, and_true]
  omega

lemma dropWhile_blank (h : cs.all isDigit = true) : cs.dropWhile blank = cs := by
  cases cs with
  | nil => rfl
  | cons c cs =>
      rw [List.all_cons, Bool.and_eq_true] at h
      rw [List.dropWhile_cons, not_blank_of_digit h.1]
      rfl

lemma trim_of_ends {c d : Char} (hhead : cs.head? = some c) (hlast : cs.reverse.head? = some d) (hc : blank c = false)
    (hd : blank d = false) : trim cs = cs := by
  have hdrop : cs.dropWhile blank = cs := by
    cases cs with
    | nil => rfl
    | cons x cs =>
        obtain rfl : x = c := by simpa using hhead
        simp [hc]
  have hreverse : cs.reverse.dropWhile blank = cs.reverse := by
    cases hr : cs.reverse with
    | nil => rfl
    | cons x rest =>
        obtain rfl : x = d := by simpa [hr] using hlast
        simp [hd]
  rw [trim, hdrop, hreverse, List.reverse_reverse]

lemma trim_of_digits (h : cs.all isDigit = true) : trim cs = cs := by
  have hreverse : cs.reverse.all isDigit = true := by rw [List.all_reverse, h]
  rw [trim, dropWhile_blank h, dropWhile_blank hreverse, List.reverse_reverse]

lemma unsignedDecimal_of_digits (h : allDigits cs = true) :
    unsignedDecimal cs = some (.finite (decimal cs)) := by
  simp only [allDigits, Bool.and_eq_true, decide_eq_true_eq] at h
  obtain ⟨hne, hall⟩ := h
  have hinfinity : cs ≠ "Infinity".toList := by
    rintro rfl
    exact absurd hall (by decide)
  have hdigits : ∀ c ∈ cs, isDigit c = true := List.all_eq_true.1 hall
  have hwhole : cs.takeWhile isDigit = cs := List.takeWhile_eq_self_iff.2 hdigits
  have hrest : cs.dropWhile isDigit = [] := List.dropWhile_eq_nil_iff.2 hdigits
  rw [unsignedDecimal, if_neg hinfinity]
  simp [hwhole, hrest, hne, exponent, power]

lemma literal_of_digits (h : allDigits cs = true) : literal cs = .finite (decimal cs) := by
  have hdigits : cs.all isDigit = true := by
    simp only [allDigits, Bool.and_eq_true] at h
    exact h.2
  unfold literal
  split
  · cases h
  iterate 6 exact absurd hdigits (by simp [isDigit])
  rw [signedDecimal, unsignedDecimal_of_digits h, Option.getD_some]
  · rintro ds rfl
    exact absurd hdigits (by simp [isDigit])
  · rintro ds rfl
    exact absurd hdigits (by simp [isDigit])

lemma denotes_of_digits (h : allDigits v.toList = true) : denotes v = .finite (ofDigits v) := by
  have hdigits : v.toList.all isDigit = true := by
    simp only [allDigits, Bool.and_eq_true] at h
    exact h.2
  rw [denotes, trim_of_digits hdigits, literal_of_digits h, ofDigits, Int.cast_natCast]

lemma isDigit_eq (c : Char) : isDigit c = c.isDigit := by
  simp only [isDigit, Char.isDigit]
  congr 1

lemma allDigits_repr (n : ℕ) : allDigits n.repr.toList = true := by
  rw [allDigits, Nat.toList_repr, Bool.and_eq_true, decide_eq_true_eq]
  refine ⟨Nat.toDigits_ne_nil, List.all_eq_true.2 ?_⟩
  intro c hc
  rw [isDigit_eq]
  exact Nat.isDigit_of_mem_toDigits (by omega) (by omega) hc

lemma ofDigits_repr (n : ℕ) : ofDigits n.repr = n := by
  rw [ofDigits, Nat.toList_repr]
  exact congrArg Int.ofNat Nat.ofDigitChars_ten_toDigits

lemma stringToBigInt_of_digits (h : allDigits v.toList = true) : stringToBigInt v = .ok (ofDigits v) := by
  have hdigits : v.toList.all isDigit = true := by
    simp only [allDigits, Bool.and_eq_true] at h
    exact h.2
  rw [stringToBigInt, trim_of_digits hdigits]
  dsimp only
  generalize hcs : v.toList = cs at *
  split
  · cases h
  iterate 8 exact absurd hdigits (by simp [isDigit])
  rw [if_pos h, ofDigits, hcs]

lemma stringToBigInt_toString (h : 0 ≤ n) : stringToBigInt (toString n) = .ok n := by
  obtain ⟨m, rfl⟩ := Int.eq_ofNat_of_zero_le h
  have hread := stringToBigInt_of_digits (allDigits_repr m)
  rw [ofDigits_repr] at hread
  exact hread

lemma toBigInt_eq_ok : x.toBigInt = .ok n ↔ x = .finite n := by
  cases x with
  | nan => simp [Number.toBigInt]
  | infinite negative => simp [Number.toBigInt]
  | finite q =>
      rw [Number.toBigInt, Number.finite.injEq]
      constructor
      · intro h
        split at h
        · rename_i hden
          rw [← Except.ok.inj h]
          exact (Rat.den_eq_one_iff q).1 hden |>.symm
        · cases h
      · rintro rfl
        rfl

end VaultRun.Data.Numeral
