import Mathlib

/-!
JSON values as the language holds them: an object or an array has an identity, the entries of an object have an
order, and the numbers are left open.
-/

namespace VaultRun.Data

inductive Json (ι ν : Type)
  | null
  | bool (b : Bool)
  | num (n : ν)
  | str (s : String)
  | arr (id : ι) (items : List (Json ι ν))
  | obj (id : ι) (entries : List (String × Json ι ν))

namespace Json

variable {ι ν : Type}

@[elab_as_elim]
lemma induct {motive : Json ι ν → Prop} (null : motive .null) (bool : ∀ b, motive (.bool b))
    (num : ∀ n, motive (.num n)) (str : ∀ s, motive (.str s))
    (arr : ∀ id items, (∀ v ∈ items, motive v) → motive (.arr id items))
    (obj : ∀ id entries, (∀ e ∈ entries, motive e.2) → motive (.obj id entries)) (v : Json ι ν) : motive v := by
  refine @Json.rec ι ν motive (fun items => ∀ v ∈ items, motive v) (fun entries => ∀ e ∈ entries, motive e.2)
    (fun e => motive e.2) null bool num str arr obj ?_ ?_ ?_ ?_ ?_ v
  · simp
  · intro v items hv hitems x hx
    rcases List.mem_cons.1 hx with rfl | hx
    · exact hv
    · exact hitems x hx
  · simp
  · intro e entries he hentries x hx
    rcases List.mem_cons.1 hx with rfl | hx
    · exact he
    · exact hentries x hx
  · exact fun _ _ h => h

mutual

def ids : Json ι ν → List ι
  | .arr id items => id :: idsOfItems items
  | .obj id entries => id :: idsOfEntries entries
  | .null | .bool _ | .num _ | .str _ => []

def idsOfItems : List (Json ι ν) → List ι
  | [] => []
  | v :: rest => ids v ++ idsOfItems rest

def idsOfEntries : List (String × Json ι ν) → List ι
  | [] => []
  | (_, v) :: rest => ids v ++ idsOfEntries rest

end

mutual

def KeysDistinct : Json ι ν → Prop
  | .arr _ items => KeysDistinctItems items
  | .obj _ entries => (entries.map Prod.fst).Nodup ∧ KeysDistinctEntries entries
  | .null | .bool _ | .num _ | .str _ => True

def KeysDistinctItems : List (Json ι ν) → Prop
  | [] => True
  | v :: rest => KeysDistinct v ∧ KeysDistinctItems rest

def KeysDistinctEntries : List (String × Json ι ν) → Prop
  | [] => True
  | (_, v) :: rest => KeysDistinct v ∧ KeysDistinctEntries rest

end

structure Tree (ι ν : Type) where
  val : Json ι ν
  unshared : val.ids.Nodup
  distinct : val.KeysDistinct

def escape (c : Char) : List Char :=
  let backslash := Char.ofNat 0x5C
  match c.toNat with
  | 0x22 | 0x5C => [backslash, c]
  | 0x08 => [backslash, 'b']
  | 0x09 => [backslash, 't']
  | 0x0A => [backslash, 'n']
  | 0x0C => [backslash, 'f']
  | 0x0D => [backslash, 'r']
  | n => if n < 0x20 then [backslash, 'u', '0', '0'] ++ [Nat.digitChar (n / 16), Nat.digitChar (n % 16)] else [c]

def quote (s : String) : List Char := [Char.ofNat 0x22] ++ s.toList.flatMap escape ++ [Char.ofNat 0x22]

mutual

/-- `JSON.stringify`, with the numbers written by `number`. -/
def stringify (number : ν → String) : Json ι ν → List Char
  | .null => "null".toList
  | .bool b => (if b then "true" else "false").toList
  | .num n => (number n).toList
  | .str s => quote s
  | .arr _ items => [Char.ofNat 0x5B] ++ [','].intercalate (stringifyItems number items) ++ [Char.ofNat 0x5D]
  | .obj _ entries => [Char.ofNat 0x7B] ++ [','].intercalate (stringifyEntries number entries) ++ [Char.ofNat 0x7D]

def stringifyItems (number : ν → String) : List (Json ι ν) → List (List Char)
  | [] => []
  | v :: rest => stringify number v :: stringifyItems number rest

def stringifyEntries (number : ν → String) : List (String × Json ι ν) → List (List Char)
  | [] => []
  | (k, v) :: rest => (quote k ++ [':'] ++ stringify number v) :: stringifyEntries number rest

end

/-- The length of a string in the language, where the characters beyond the first plane count twice. -/
def length (cs : List Char) : ℕ := (cs.map fun c => if c.toNat < 0x10000 then 1 else 2).sum

end Json

end VaultRun.Data
