import VaultRun.Data.Json
import VaultRun.Data.Numeral

/-!
Schemas of JSON values: numbers under checks, objects with their fields, records, and a predicate put on what a
schema lets through.
-/

namespace VaultRun.Data

open Numeral

abbrev Value := Json Unit Number

namespace Json

/-- `o[key]`, `none` where it is `undefined`. -/
def get (key : String) : Value → Option Value
  | .obj _ entries => entries.lookup key
  | .null | .bool _ | .num _ | .str _ | .arr _ _ => none

end Json

inductive Check
  | int
  | nonnegative
  | positive
  | min (n : ℤ)
  | max (n : ℤ)

def Check.admits : Check → Number → Bool
  | .int, x => x.isInteger
  | .nonnegative, x => Number.le (.finite 0) x
  | .positive, x => x.positive
  | .min n, x => Number.le (.finite n) x
  | .max n, x => x.le (.finite n)

inductive Schema
  | number (checks : List Check)
  | boolean
  | object (fields : List (String × Bool × Schema)) (strict : Bool)
  | record (minKey : ℕ) (values : Schema)
  | refine (schema : Schema) (p : Value → Bool)

namespace Schema

mutual

/-- What a value may be taken for under a schema. A field that may be left out is marked with `true`. -/
def Infers : Schema → Value → Value → Prop
  | .number checks, v, data => ∃ n, v = .num n ∧ data = .num n ∧ ∀ c ∈ checks, c.admits n
  | .boolean, v, data => ∃ b, v = .bool b ∧ data = .bool b
  | .object fields strict, v, data =>
      ∃ entries, v = .obj () entries ∧ InfersFields fields v data ∧
        (strict → ∀ e ∈ entries, e.1 ∈ fields.map Prod.fst)
  | .record minKey values, v, data =>
      ∃ entries kept, v = .obj () entries ∧ data = .obj () kept ∧
        ∀ e ∈ kept, minKey ≤ e.1.length ∧ ∃ w, (e.1, w) ∈ entries ∧ values.Infers w e.2
  | .refine schema p, v, data => schema.Infers v data ∧ p data

def InfersFields : List (String × Bool × Schema) → Value → Value → Prop
  | [], _, _ => True
  | (key, optional, schema) :: rest, v, data =>
      (∀ w, v.get key = some w → ∃ d, data.get key = some d ∧ schema.Infers w d) ∧
        (v.get key = none → optional ∧ data.get key = none) ∧ InfersFields rest v data

end

/-- A parser that takes a value for nothing else than its schema lets it be taken for. -/
structure Sound (safeParse : Schema → Value → Option Value) : Prop where
  infers : ∀ {s v data}, safeParse s v = some data → s.Infers v data

variable {fields : List (String × Bool × Schema)} {checks : List Check} {v data : Value} {key : String}
  {optional : Bool} {schema : Schema} {x : Number}

lemma infersFields_iff : InfersFields fields v data ↔ ∀ f ∈ fields,
    (∀ w, v.get f.1 = some w → ∃ d, data.get f.1 = some d ∧ f.2.2.Infers w d) ∧
      (v.get f.1 = none → f.2.1 ∧ data.get f.1 = none) := by
  induction fields with
  | nil => simp [InfersFields]
  | cons f fields ih =>
      obtain ⟨key, optional, schema⟩ := f
      rw [InfersFields, List.forall_mem_cons, ih, and_assoc]

inductive Field (schema : Schema) : Bool → Option Value → Option Value → Prop
  | present {optional : Bool} {w d : Value} (infers : schema.Infers w d) : Field schema optional (some w) (some d)
  | absent : Field schema true none none

lemma field_of_infersFields (h : InfersFields fields v data) (hmem : (key, optional, schema) ∈ fields) :
    Field schema optional (v.get key) (data.get key) := by
  obtain ⟨hpresent, habsent⟩ := infersFields_iff.1 h _ hmem
  cases hw : v.get key with
  | none =>
      obtain ⟨hoptional, hdata⟩ := habsent hw
      obtain rfl : optional = true := hoptional
      rw [hdata]
      exact .absent
  | some w =>
      obtain ⟨d, hdata, hinfers⟩ := hpresent w hw
      rw [hdata]
      exact .present hinfers

lemma exists_num_of_field (h : Field (.number checks) false (v.get key) (data.get key)) :
    ∃ n, v.get key = some (.num n) ∧ data.get key = some (.num n) ∧ ∀ c ∈ checks, c.admits n := by
  generalize v.get key = a, data.get key = b at *
  cases h with
  | present hinfers =>
      obtain ⟨n, rfl, rfl, hchecks⟩ := hinfers
      exact ⟨n, rfl, rfl, hchecks⟩

lemma exists_int (h : Check.int.admits x = true) : ∃ z : ℤ, x = .finite z := by
  cases x with
  | nan => cases h
  | infinite negative => cases h
  | finite q =>
      have hden : q.den = 1 := by simpa [Check.admits, Number.isInteger] using h
      exact ⟨q.num, by rw [(Rat.den_eq_one_iff q).1 hden]⟩

mutual

def accepts : Schema → Value → Bool
  | .number checks, .num n => checks.all (·.admits n)
  | .boolean, .bool _ => true
  | .object fields strict, .obj _ entries =>
      acceptsFields fields (.obj () entries) &&
        (!strict || entries.all fun e => (fields.map Prod.fst).contains e.1)
  | .record minKey values, .obj _ entries => entries.all fun e => minKey ≤ e.1.length && values.accepts e.2
  | .refine schema p, v => schema.accepts v && p v
  | _, _ => false

def acceptsFields : List (String × Bool × Schema) → Value → Bool
  | [], _ => true
  | (key, optional, schema) :: rest, v =>
      (match v.get key with
        | some w => schema.accepts w
        | none => optional) && acceptsFields rest v

end

def validate (schema : Schema) (v : Value) : Option Value := if schema.accepts v then some v else none

mutual

lemma infers_of_accepts (schema : Schema) (v : Value) (h : schema.accepts v = true) : schema.Infers v v := by
  cases schema with
  | number checks =>
      cases v with
      | num n => exact ⟨n, rfl, rfl, List.all_eq_true.1 h⟩
      | _ => cases h
  | boolean =>
      cases v with
      | bool b => exact ⟨b, rfl, rfl⟩
      | _ => cases h
  | object fields strict =>
      cases v with
      | obj id entries =>
          rw [accepts, Bool.and_eq_true] at h
          refine ⟨entries, rfl, inferFields_of_acceptsFields fields _ h.1, ?_⟩
          rintro rfl
          simpa using h.2
      | _ => cases h
  | record minKey values =>
      cases v with
      | obj id entries =>
          refine ⟨entries, entries, rfl, rfl, ?_⟩
          intro e he
          have hentry := List.all_eq_true.1 h e he
          rw [Bool.and_eq_true, decide_eq_true_eq] at hentry
          exact ⟨hentry.1, e.2, he, infers_of_accepts values e.2 hentry.2⟩
      | _ => cases h
  | refine schema p =>
      rw [accepts, Bool.and_eq_true] at h
      exact ⟨infers_of_accepts schema v h.1, h.2⟩

lemma inferFields_of_acceptsFields (fields : List (String × Bool × Schema)) (v : Value)
    (h : acceptsFields fields v = true) : InfersFields fields v v := by
  cases fields with
  | nil => trivial
  | cons field rest =>
      obtain ⟨key, optional, schema⟩ := field
      rw [acceptsFields, Bool.and_eq_true] at h
      refine ⟨?_, ?_, inferFields_of_acceptsFields rest v h.2⟩
      · intro w hw
        have hschema := h.1
        rw [hw] at hschema
        exact ⟨w, hw, infers_of_accepts schema w hschema⟩
      · intro hnone
        have hoptional := h.1
        rw [hnone] at hoptional
        exact ⟨hoptional, hnone⟩

end

lemma validate_sound : Sound validate where
  infers := by
    intro s v data h
    rw [validate] at h
    split at h
    · rename_i haccepts
      obtain rfl := Option.some.inj h
      exact infers_of_accepts s v haccepts
    · cases h

end Schema

end VaultRun.Data
