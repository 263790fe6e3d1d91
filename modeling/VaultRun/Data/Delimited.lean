import Mathlib.Data.List.Basic

/-!
Fields joined by a separator: a list splits in one way at the first separator, and in one way at the last. The ids
whose fields have fixed lengths.
-/

namespace VaultRun.Data.Delimited

variable {α : Type} {sep : α} {a a' b b' : List α}

lemma first_eq (ha : sep ∉ a) (ha' : sep ∉ a') (h : a ++ sep :: b = a' ++ sep :: b') : a = a' ∧ b = b' := by
  induction a generalizing a' with
  | nil =>
      cases a' with
      | nil => exact ⟨rfl, (List.cons.inj h).2⟩
      | cons x a' => exact absurd (List.mem_cons.2 (.inl (List.cons.inj h).1)) ha'
  | cons x a ih =>
      cases a' with
      | nil => exact absurd (List.mem_cons.2 (.inl (List.cons.inj h).1.symm)) ha
      | cons y a' =>
          obtain ⟨rfl, htail⟩ := List.cons.inj h
          obtain ⟨rfl, rfl⟩ := ih (fun hm => ha (.tail _ hm)) (fun hm => ha' (.tail _ hm)) htail
          exact ⟨rfl, rfl⟩

lemma last_eq (hb : sep ∉ b) (hb' : sep ∉ b') (h : a ++ sep :: b = a' ++ sep :: b') : a = a' ∧ b = b' := by
  have hreverse : b.reverse ++ sep :: a.reverse = b'.reverse ++ sep :: a'.reverse := by
    simpa using congrArg List.reverse h
  obtain ⟨hrb, hra⟩ := first_eq (by simpa using hb) (by simpa using hb') hreverse
  exact ⟨List.reverse_injective hra, List.reverse_injective hrb⟩

section Scan

variable [DecidableEq α]

lemma takeWhile_ne (ha : sep ∉ a) : (a ++ sep :: b).takeWhile (· ≠ sep) = a := by
  rw [List.takeWhile_append_of_pos, List.takeWhile_cons_of_neg (by simp), List.append_nil]
  intro x hx
  exact decide_eq_true fun heq => ha (heq ▸ hx)

lemma dropWhile_ne (ha : sep ∉ a) : (a ++ sep :: b).dropWhile (· ≠ sep) = sep :: b := by
  rw [List.dropWhile_append_of_pos, List.dropWhile_cons_of_neg (by simp)]
  intro x hx
  exact decide_eq_true fun heq => ha (heq ▸ hx)

/-- What stands before the first separator and after it. -/
lemma eq_of_dropWhile {l : List α} {x : α} (h : l.dropWhile (· ≠ sep) = x :: b) :
    l = l.takeWhile (· ≠ sep) ++ sep :: b := by
  have hx : x = sep := by
    have hhead := List.head?_dropWhile_not (· ≠ sep) l
    rw [h] at hhead
    simpa using hhead
  rw [hx] at h
  rw [← h, List.takeWhile_append_dropWhile]

end Scan

section Ids

variable {digit digit' : Char → Bool} {cs : List Char} {c : Char}

/-- Digits in groups of 8, 4, 4, 4 and 12. -/
def uuidShape (digit : Char → Bool) (cs : List Char) : Bool :=
  cs.length = 36 && cs.zipIdx.all fun c => if c.2 ∈ [8, 13, 18, 23] then c.1 = '-' else digit c.1

structure UuidOf (digit : Char → Bool) where
  val : String
  valid : uuidShape digit val.toList = true
  deriving DecidableEq

lemma length_of_uuidShape (h : uuidShape digit cs) : cs.length = 36 := by
  simp only [uuidShape, Bool.and_eq_true, decide_eq_true_eq] at h
  exact h.1

lemma not_mem_of_uuidShape (hdash : c ≠ '-') (hdigit : digit c = false) (h : uuidShape digit cs) : c ∉ cs := by
  intro hmem
  obtain ⟨i, hi, hget⟩ := List.getElem_of_mem hmem
  simp only [uuidShape, Bool.and_eq_true, List.all_eq_true] at h
  have hat := h.2 (c, i) (by simp [List.mem_zipIdx_iff_getElem?, List.getElem?_eq_getElem hi, hget])
  split_ifs at hat
  · exact hdash (of_decide_eq_true hat)
  · exact absurd (hdigit.symm.trans hat) (by decide)

lemma uuidShape_map {f : Char → Char} (hdash : ∀ c, f c = '-' ↔ c = '-') (hdigit : ∀ c, digit (f c) = digit' c) :
    uuidShape digit (cs.map f) = uuidShape digit' cs := by
  rw [uuidShape, uuidShape, List.length_map, List.zipIdx_map, List.all_map]
  congr 2
  funext c
  by_cases hc : c.2 ∈ [8, 13, 18, 23]
  · simp only [Function.comp, Prod.map, id, if_pos hc, hdash]
  · simp only [Function.comp, Prod.map, id, if_neg hc, hdigit]

end Ids

end VaultRun.Data.Delimited
