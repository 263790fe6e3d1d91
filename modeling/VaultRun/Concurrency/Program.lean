import Mathlib.Tactic.Basic

/-!
Asynchronous functions as data: a program is a tree of statements, each of which the environment
answers with a result or an error before the next one is issued.
-/

namespace VaultRun.Concurrency

structure Interface where
  Stmt : Type
  Result : Stmt → Type
  Error : Type

abbrev Interface.Reply (I : Interface) (s : I.Stmt) := Except I.Error (I.Result s)

inductive Program (I : Interface) (α : Type) where
  | ret (a : α)
  | raise (e : I.Error)
  | call (s : I.Stmt) (k : I.Reply s → Program I α)

namespace Program

variable {I : Interface} {α β : Type}

def bind : Program I α → (α → Program I β) → Program I β
  | ret a, f => f a
  | raise e, _ => raise e
  | call s k, f => call s fun r => (k r).bind f

/-- `p.catching h` runs `h` on whatever `p` throws. -/
def catching : Program I α → (I.Error → Program I α) → Program I α
  | ret a, _ => ret a
  | raise e, h => h e
  | call s k, h => call s fun r => (k r).catching h

def attempt : Program I α → Program I (Except I.Error α)
  | ret a => ret (.ok a)
  | raise e => ret (.error e)
  | call s k => call s fun r => (k r).attempt

instance : Monad (Program I) where
  pure := ret
  bind := bind

def ofReply : Except I.Error α → Program I α
  | .ok a => ret a
  | .error e => raise e

def await (s : I.Stmt) : Program I (I.Result s) := call s ofReply

def loop (f : β → α → Program I β) : β → List α → Program I β
  | acc, [] => ret acc
  | acc, x :: xs => do
      let acc ← f acc x
      loop f acc xs

lemma bind_assoc {γ : Type} (p : Program I α) (f : α → Program I β) (g : β → Program I γ) :
    p >>= f >>= g = p >>= fun a => f a >>= g := by
  induction p with
  | ret a => rfl
  | raise e => rfl
  | call s k ih => exact congrArg (call s) (funext ih)

/-- Some sequence of replies makes the program return `a`. -/
def Returns (a : α) : Program I α → Prop
  | ret b => b = a
  | raise _ => False
  | call _ k => ∃ r, (k r).Returns a

@[simp] lemma returns_pure {a b : α} : (pure a : Program I α).Returns b ↔ a = b := Iff.rfl

lemma returns_bind {p : Program I α} {f : α → Program I β} {b : β} :
    (p >>= f).Returns b ↔ ∃ a, p.Returns a ∧ (f a).Returns b := by
  induction p with
  | ret a => exact ⟨fun h => ⟨a, rfl, h⟩, fun ⟨_, ha, h⟩ => ha ▸ h⟩
  | raise e => exact ⟨fun h => h.elim, fun ⟨_, ha, _⟩ => ha.elim⟩
  | call s k ih =>
      constructor
      · rintro ⟨r, hr⟩
        obtain ⟨a, ha, hb⟩ := (ih r).1 hr
        exact ⟨a, ⟨r, ha⟩, hb⟩
      · rintro ⟨a, ⟨r, ha⟩, hb⟩
        exact ⟨r, (ih r).2 ⟨a, ha, hb⟩⟩

lemma returns_map {p : Program I α} {f : α → β} {b : β} :
    (f <$> p).Returns b ↔ ∃ a, p.Returns a ∧ f a = b := returns_bind

def Raises (e : I.Error) : Program I α → Prop
  | ret _ => False
  | raise d => d = e
  | call _ k => ∃ r, (k r).Raises e

/-- Every statement the program can ever issue satisfies `φ`. -/
def Uses (φ : I.Stmt → Prop) : Program I α → Prop
  | ret _ => True
  | raise _ => True
  | call s k => φ s ∧ ∀ r, (k r).Uses φ

section Uses

variable {φ ψ : I.Stmt → Prop}

@[simp] lemma uses_ret (a : α) : (ret a : Program I α).Uses φ := trivial

@[simp] lemma uses_pure (a : α) : (pure a : Program I α).Uses φ := trivial

@[simp] lemma uses_raise (e : I.Error) : (raise e : Program I α).Uses φ := trivial

@[simp] lemma uses_call {s : I.Stmt} {k : I.Reply s → Program I α} :
    (call s k).Uses φ ↔ φ s ∧ ∀ r, (k r).Uses φ := Iff.rfl

@[simp] lemma uses_ofReply (r : Except I.Error α) : (ofReply r).Uses φ := by
  cases r <;> trivial

@[simp] lemma uses_ite {c : Prop} [Decidable c] {p q : Program I α} :
    (if c then p else q).Uses φ ↔ (c → p.Uses φ) ∧ (¬ c → q.Uses φ) := by
  split <;> simp_all

@[simp] lemma uses_bind {p : Program I α} {f : α → Program I β} :
    (p >>= f).Uses φ ↔ p.Uses φ ∧ ∀ a, p.Returns a → (f a).Uses φ := by
  induction p with
  | ret a => exact ⟨fun h => ⟨trivial, fun b hb => hb ▸ h⟩, fun h => h.2 a rfl⟩
  | raise e => exact ⟨fun _ => ⟨trivial, fun _ hb => hb.elim⟩, fun _ => trivial⟩
  | call s k ih =>
      refine ⟨fun h => ⟨⟨h.1, fun r => ((ih r).1 (h.2 r)).1⟩, ?_⟩, fun h => ⟨h.1.1, fun r => ?_⟩⟩
      · rintro a ⟨r, hr⟩
        exact ((ih r).1 (h.2 r)).2 a hr
      · exact (ih r).2 ⟨h.1.2 r, fun a ha => h.2 a ⟨r, ha⟩⟩

@[simp] lemma uses_catching {p : Program I α} {f : I.Error → Program I α} :
    (p.catching f).Uses φ ↔ p.Uses φ ∧ ∀ e, p.Raises e → (f e).Uses φ := by
  induction p with
  | ret a => exact ⟨fun _ => ⟨trivial, fun _ hb => hb.elim⟩, fun _ => trivial⟩
  | raise e => exact ⟨fun h => ⟨trivial, fun b hb => hb ▸ h⟩, fun h => h.2 e rfl⟩
  | call s k ih =>
      refine ⟨fun h => ⟨⟨h.1, fun r => ((ih r).1 (h.2 r)).1⟩, ?_⟩, fun h => ⟨h.1.1, fun r => ?_⟩⟩
      · rintro a ⟨r, hr⟩
        exact ((ih r).1 (h.2 r)).2 a hr
      · exact (ih r).2 ⟨h.1.2 r, fun a ha => h.2 a ⟨r, ha⟩⟩

@[simp] lemma uses_attempt {p : Program I α} :
    @Uses I (no_index (Except I.Error α)) φ p.attempt ↔ p.Uses φ := by
  induction p with
  | ret a => exact Iff.rfl
  | raise e => exact Iff.rfl
  | call s k ih => exact and_congr Iff.rfl (forall_congr' ih)

@[simp] lemma uses_map {p : Program I α} {f : α → β} : (f <$> p).Uses φ ↔ p.Uses φ := by
  change (p >>= pure ∘ f).Uses φ ↔ _
  simp

lemma uses_loop {f : β → α → Program I β} {xs : List α} (acc : β)
    (hf : ∀ acc, ∀ x ∈ xs, (f acc x).Uses φ) : (loop f acc xs).Uses φ := by
  induction xs generalizing acc with
  | nil => trivial
  | cons x xs ih =>
      exact uses_bind.2 ⟨hf acc x (by simp), fun acc _ => ih acc fun acc y hy => hf acc y (by simp [hy])⟩

lemma Uses.and {p : Program I α} (hp : p.Uses φ) (hp' : p.Uses ψ) : p.Uses fun s => φ s ∧ ψ s := by
  induction p with
  | ret a => trivial
  | raise e => trivial
  | call s k ih => exact ⟨⟨hp.1, hp'.1⟩, fun r => ih r (hp.2 r) (hp'.2 r)⟩

lemma Uses.mono {p : Program I α} (hp : p.Uses φ) (h : ∀ s, φ s → ψ s) : p.Uses ψ := by
  induction p with
  | ret a => trivial
  | raise e => trivial
  | call s k ih => exact ⟨h s hp.1, fun r => ih r (hp.2 r)⟩

end Uses

end Program

/-- A property of programs that every way to put programs together keeps. -/
structure Compositional {I : Interface} (K : (α : Type) → Program I α → Prop) : Prop where
  ret : ∀ {α : Type} (a : α), K α (.ret a)
  raise : ∀ {α : Type} (e : I.Error), K α (.raise e)
  bind : ∀ {α β : Type} {p : Program I α} {f : α → Program I β},
    K α p → (∀ a, K β (f a)) → K β (p >>= f)
  catching : ∀ {α : Type} {p : Program I α} {h : I.Error → Program I α},
    K α p → (∀ e, K α (h e)) → K α (p.catching h)
  attempt : ∀ {α : Type} {p : Program I α}, K α p → K (Except I.Error α) p.attempt

namespace Compositional

variable {I : Interface} {K : (α : Type) → Program I α → Prop} {α β : Type} (hK : Compositional K)
include hK

lemma map {p : Program I α} {f : α → β} (hp : K α p) : K β (f <$> p) :=
  hK.bind hp fun a => hK.ret (f a)

lemma loop {f : β → α → Program I β} {xs : List α} (acc : β)
    (hf : ∀ acc x, K β (f acc x)) : K β (Program.loop f acc xs) := by
  induction xs generalizing acc with
  | nil => exact hK.ret acc
  | cons x xs ih => exact hK.bind (hf acc x) fun acc => ih acc

end Compositional

lemma uses_compositional {I : Interface} {φ : I.Stmt → Prop} :
    Compositional fun (α : Type) (p : Program I α) => p.Uses φ where
  ret _ := trivial
  raise _ := trivial
  bind hp hf := Program.uses_bind.2 ⟨hp, fun a _ => hf a⟩
  catching hp hh := Program.uses_catching.2 ⟨hp, fun e _ => hh e⟩
  attempt hp := Program.uses_attempt.2 hp

end VaultRun.Concurrency
