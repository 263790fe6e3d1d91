import Mathlib.Data.List.Basic
import Mathlib.Logic.Relation
import VaultRun.Concurrency.Program

/-!
Concurrent calls over a shared state: any number of programs take their statements in any order,
an oracle picks the outcome of each statement, and a call may be killed between two of them.
-/

namespace VaultRun.Concurrency

open Relation

/-- `exec` answers a statement, or returns `none` where the caller has to wait; `env` is a move of
the surroundings, which may start one more call; `abort` is the death of a call. -/
structure Machine (I : Interface) (Out σ Event Oracle : Type) where
  exec : Oracle → ℕ → (s : I.Stmt) → σ → Option (I.Reply s × σ)
  env : Event → ℕ → σ → Option (σ × Option (Program I Out))
  abort : ℕ → σ → σ

inductive Entry (I : Interface) (σ Event : Type) where
  | answered (caller : ℕ) (s : I.Stmt) (r : I.Reply s) (before after : σ)
  | moved (call : ℕ) (e : Event) (before after : σ)
  | killed (call : ℕ) (before after : σ)

/-- The log holds every step so far, the newest first. -/
structure World (I : Interface) (σ Event : Type) where
  state : σ
  log : List (Entry I σ Event)

inductive Thread (I : Interface) (Out : Type) where
  | live (p : Program I Out)
  | killed

structure Config (I : Interface) (Out σ Event : Type) where
  world : World I σ Event
  threads : List (Thread I Out)

variable {I : Interface} {Out σ Event Oracle : Type}

namespace Entry

def before : Entry I σ Event → σ
  | answered _ _ _ b _ | moved _ _ b _ | killed _ b _ => b

def after : Entry I σ Event → σ
  | answered _ _ _ _ a | moved _ _ _ a | killed _ _ a => a

def call : Entry I σ Event → ℕ
  | answered i _ _ _ _ | moved i _ _ _ | killed i _ _ => i

def Issues (i : ℕ) (s : I.Stmt) (x : Entry I σ Event) : Prop := ∃ r b a, x = answered i s r b a

end Entry

namespace World

def answer (w : World I σ Event) (i : ℕ) (s : I.Stmt) (r : I.Reply s) (a : σ) : World I σ Event :=
  ⟨a, .answered i s r w.state a :: w.log⟩

def move (w : World I σ Event) (n : ℕ) (e : Event) (a : σ) : World I σ Event :=
  ⟨a, .moved n e w.state a :: w.log⟩

def kill (w : World I σ Event) (i : ℕ) (a : σ) : World I σ Event :=
  ⟨a, .killed i w.state a :: w.log⟩

variable {w : World I σ Event} {n i : ℕ} {s : I.Stmt} {r : I.Reply s} {e : Event} {a : σ}

@[simp] lemma answer_state : (w.answer i s r a).state = a := rfl

@[simp] lemma answer_log : (w.answer i s r a).log = .answered i s r w.state a :: w.log := rfl

@[simp] lemma move_state : (w.move n e a).state = a := rfl

@[simp] lemma move_log : (w.move n e a).log = .moved n e w.state a :: w.log := rfl

@[simp] lemma kill_state : (w.kill i a).state = a := rfl

@[simp] lemma kill_log : (w.kill i a).log = .killed i w.state a :: w.log := rfl

end World

def Config.initial (s : σ) : Config I Out σ Event := ⟨⟨s, []⟩, []⟩

namespace Machine

inductive Label (Event Oracle : Type)
  | act (i : ℕ) (o : Oracle)
  | env (e : Event)
  | kill (i : ℕ)

variable (M : Machine I Out σ Event Oracle)

def actOn (i : ℕ) (o : Oracle) (c : Config I Out σ Event) :
    Thread I Out → Option (Config I Out σ Event)
  | .live (.call s k) =>
      (M.exec o i s c.world.state).map fun out =>
        ⟨c.world.answer i s out.1 out.2, c.threads.set i (.live (k out.1))⟩
  | _ => none

def killOn (i : ℕ) (c : Config I Out σ Event) : Thread I Out → Option (Config I Out σ Event)
  | .live (.call _ _) =>
      some ⟨c.world.kill i (M.abort i c.world.state), c.threads.set i .killed⟩
  | _ => none

def step (c : Config I Out σ Event) : Label Event Oracle → Option (Config I Out σ Event)
  | .act i o => c.threads[i]?.bind (M.actOn i o c)
  | .env e =>
      (M.env e c.threads.length c.world.state).map fun out =>
        ⟨c.world.move c.threads.length e out.1, c.threads ++ (out.2.map Thread.live).toList⟩
  | .kill i => c.threads[i]?.bind (M.killOn i c)

def run (c : Config I Out σ Event) : List (Label Event Oracle) → Option (Config I Out σ Event)
  | [] => some c
  | l :: ls => (M.step c l).bind fun c' => run c' ls

end Machine

/-- What a run is allowed to do; `Rule.free` allows everything. -/
structure Rule (I : Interface) (σ Event Oracle : Type) where
  act : ℕ → Oracle → I.Stmt → World I σ Event → Prop
  kill : ℕ → World I σ Event → Prop
  env : ℕ → Event → World I σ Event → Prop

namespace Rule

def free : Rule I σ Event Oracle := ⟨fun _ _ _ _ => True, fun _ _ => True, fun _ _ _ => True⟩

variable (R : Rule I σ Event Oracle) (M : Machine I Out σ Event Oracle)

def Allows (c : Config I Out σ Event) : Machine.Label Event Oracle → Prop
  | .act i o => ∀ s k, c.threads[i]? = some (.live (.call s k)) → R.act i o s c.world
  | .env e => R.env c.threads.length e c.world
  | .kill i => R.kill i c.world

def Step (c c' : Config I Out σ Event) : Prop := ∃ l, R.Allows c l ∧ M.step c l = some c'

def Reaches : Config I Out σ Event → Config I Out σ Event → Prop := ReflTransGen (R.Step M)

def Obeys (c : Config I Out σ Event) : List (Machine.Label Event Oracle) → Prop
  | [] => True
  | l :: ls => R.Allows c l ∧ ∀ c', M.step c l = some c' → Obeys c' ls

variable {R} in
lemma allows_act {c : Config I Out σ Event} {i : ℕ} {o : Oracle} {s : I.Stmt}
    {k : I.Reply s → Program I Out} (h : c.threads[i]? = some (.live (.call s k))) :
    R.Allows c (.act i o) ↔ R.act i o s c.world := by
  refine ⟨fun hr => hr s k h, fun hr s' k' hk => ?_⟩
  rw [h] at hk
  cases hk
  exact hr

section Decidable

variable [∀ i o s w, Decidable (R.act i o s w)] [∀ i w, Decidable (R.kill i w)]
  [∀ n e w, Decidable (R.env n e w)]

instance decidableAllows (c : Config I Out σ Event) :
    (l : Machine.Label Event Oracle) → Decidable (R.Allows c l)
  | .act i o =>
      match h : c.threads[i]? with
      | some (.live (.call s k)) => decidable_of_iff (R.act i o s c.world) (allows_act h).symm
      | some (.live (.ret a)) => .isTrue (by simp [Allows, h])
      | some (.live (.raise e)) => .isTrue (by simp [Allows, h])
      | some .killed => .isTrue (by simp [Allows, h])
      | none => .isTrue (by simp [Allows, h])
  | .env e => inferInstanceAs (Decidable (R.env c.threads.length e c.world))
  | .kill i => inferInstanceAs (Decidable (R.kill i c.world))

instance decidableObeys : (c : Config I Out σ Event) → (ls : List (Machine.Label Event Oracle)) →
    Decidable (R.Obeys M c ls)
  | _, [] => .isTrue trivial
  | c, l :: ls =>
      match h : M.step c l with
      | some c' =>
          have := decidableObeys c' ls
          decidable_of_iff (R.Allows c l ∧ R.Obeys M c' ls) (by simp [Obeys, h])
      | none => decidable_of_iff (R.Allows c l) (by simp [Obeys, h])

end Decidable

variable {R M} {c c' : Config I Out σ Event} {l : Machine.Label Event Oracle}
  {ls : List (Machine.Label Event Oracle)}

lemma reaches_of_run (hR : R.Obeys M c ls) (h : M.run c ls = some c') : R.Reaches M c c' := by
  induction ls generalizing c with
  | nil =>
      obtain rfl : c = c' := by simpa [Machine.run] using h
      exact .refl
  | cons l ls ih =>
      obtain ⟨c₁, hl, hls⟩ := Option.bind_eq_some_iff.1 h
      exact .head ⟨l, hR.1, hl⟩ (ih (hR.2 c₁ hl) hls)

lemma obeys_free : (free : Rule I σ Event Oracle).Obeys M c ls := by
  induction ls generalizing c with
  | nil => trivial
  | cons l ls ih =>
      refine ⟨?_, fun c' _ => ih⟩
      cases l <;> simp [Allows, free]

end Rule

variable {M : Machine I Out σ Event Oracle} {c c' : Config I Out σ Event}
  {l : Machine.Label Event Oracle}

lemma Rule.Reaches.free {R : Rule I σ Event Oracle} (h : R.Reaches M c c') : Rule.free.Reaches M c c' := by
  refine ReflTransGen.mono ?_ _ _ h
  rintro c₁ c₂ ⟨l, -, hl⟩
  refine ⟨l, ?_, hl⟩
  cases l with
  | act i o => exact fun _ _ _ => trivial
  | env e => trivial
  | kill i => trivial

/-- A step is a statement of one live call, a move of the surroundings, or the death of a call. -/
lemma step_cases (h : M.step c l = some c') :
    (∃ i o s k r σ', l = .act i o ∧ c.threads[i]? = some (.live (.call s k)) ∧
      M.exec o i s c.world.state = some (r, σ') ∧
      c' = ⟨c.world.answer i s r σ', c.threads.set i (.live (k r))⟩) ∨
    (∃ e σ' p, l = .env e ∧ M.env e c.threads.length c.world.state = some (σ', p) ∧
      c' = ⟨c.world.move c.threads.length e σ', c.threads ++ (p.map Thread.live).toList⟩) ∨
    (∃ i s k, l = .kill i ∧ c.threads[i]? = some (.live (.call s k)) ∧
      c' = ⟨c.world.kill i (M.abort i c.world.state), c.threads.set i .killed⟩) := by
  cases l with
  | act i o =>
      obtain ⟨t, ht, h⟩ := Option.bind_eq_some_iff.1 h
      match t, ht, h with
      | .live (.call s k), ht, h =>
          obtain ⟨⟨r, σ'⟩, hr, rfl⟩ := Option.map_eq_some_iff.1 h
          exact .inl ⟨i, o, s, k, r, σ', rfl, ht, hr, rfl⟩
  | env e =>
      obtain ⟨⟨σ', p⟩, hp, rfl⟩ := Option.map_eq_some_iff.1 h
      exact .inr (.inl ⟨e, σ', p, rfl, hp, rfl⟩)
  | kill i =>
      obtain ⟨t, ht, h⟩ := Option.bind_eq_some_iff.1 h
      match t, ht, h with
      | .live (.call s k), ht, h =>
          exact .inr (.inr ⟨i, s, k, rfl, ht, (Option.some.inj h).symm⟩)

def Starts (M : Machine I Out σ Event Oracle) (i : ℕ) (x : Entry I σ Event) : Prop :=
  ∃ e b a p, x = .moved i e b a ∧ M.env e i b = some (a, some p)

/-- A rule that knows that a call has issued nothing before it is started. -/
def Rule.unissued (R : Rule I σ Event Oracle) : Rule I σ Event Oracle :=
  { R with env := fun n e w => R.env n e w ∧ ∀ x ∈ w.log, ∀ s, ¬ x.Issues n s }

lemma Rule.Reaches.unissued {R : Rule I σ Event Oracle} {s : σ} (h : R.Reaches M (Config.initial s) c) :
    R.unissued.Reaches M (Config.initial s) c ∧ ∀ x ∈ c.world.log, ∀ i s, x.Issues i s → i < c.threads.length := by
  induction h with
  | refl => exact ⟨.refl, by simp [Config.initial]⟩
  | @tail c c' _ hstep ih =>
      obtain ⟨hreach, hlt⟩ := ih
      obtain ⟨l, hl, hc⟩ := hstep
      have hallowed : R.unissued.Allows c l := by
        cases l with
        | act i o => exact hl
        | env e => exact ⟨hl, fun x hx s hs => absurd (hlt x hx _ s hs) (Nat.lt_irrefl _)⟩
        | kill i => exact hl
      refine ⟨hreach.tail ⟨l, hallowed, hc⟩, ?_⟩
      rcases step_cases hc with ⟨i, o, s, k, r, σ', -, ht, -, rfl⟩ | ⟨e, σ', p, -, hp, rfl⟩ |
        ⟨i, s, k, -, -, rfl⟩
      · intro x hx j s' hs
        rw [List.length_set]
        rcases List.mem_cons.1 hx with rfl | hx
        · obtain ⟨r', b, a, h⟩ := hs
          obtain ⟨rfl, -⟩ := Entry.answered.inj h
          exact (List.getElem?_eq_some_iff.1 ht).1
        · exact hlt x hx j s' hs
      · intro x hx j s' hs
        rw [List.length_append]
        rcases List.mem_cons.1 hx with rfl | hx
        · obtain ⟨_, _, _, h⟩ := hs
          cases h
        · exact Nat.lt_add_right _ (hlt x hx j s' hs)
      · intro x hx j s' hs
        rw [List.length_set]
        rcases List.mem_cons.1 hx with rfl | hx
        · obtain ⟨_, _, _, h⟩ := hs
          cases h
        · exact hlt x hx j s' hs

/-- A rule that knows that no two calls are started under one number. -/
def Rule.fresh (R : Rule I σ Event Oracle) (M : Machine I Out σ Event Oracle) :
    Rule I σ Event Oracle :=
  { R with env := fun n e w => R.env n e w ∧ ∀ x ∈ w.log, ¬ Starts M n x }

lemma Rule.Reaches.started {R : Rule I σ Event Oracle} {s : σ} (h : R.Reaches M (Config.initial s) c) :
    (R.fresh M).Reaches M (Config.initial s) c ∧
      ∀ x ∈ c.world.log, ∀ i, Starts M i x → i < c.threads.length := by
  induction h with
  | refl => exact ⟨.refl, by simp [Config.initial]⟩
  | @tail c c' _ hstep ih =>
      obtain ⟨hreach, hlt⟩ := ih
      obtain ⟨l, hl, hc⟩ := hstep
      have hfresh : (R.fresh M).Allows c l := by
        cases l with
        | act i o => exact hl
        | env e => exact ⟨hl, fun x hx hs => absurd (hlt x hx _ hs) (Nat.lt_irrefl _)⟩
        | kill i => exact hl
      refine ⟨hreach.tail ⟨l, hfresh, hc⟩, ?_⟩
      rcases step_cases hc with ⟨i, o, s, k, r, σ', -, -, -, rfl⟩ | ⟨e, σ', p, -, hp, rfl⟩ |
        ⟨i, s, k, -, -, rfl⟩
      · intro x hx j hs
        rw [List.length_set]
        rcases List.mem_cons.1 hx with rfl | hx
        · obtain ⟨e, b, a, p, h, -⟩ := hs
          cases h
        · exact hlt x hx j hs
      · intro x hx j hs
        rcases List.mem_cons.1 hx with rfl | hx
        · obtain ⟨e', b, a, q, h, hq⟩ := hs
          cases h
          obtain rfl : p = some q := (Prod.mk.inj (Option.some.inj (hp.symm.trans hq))).2
          simp
        · exact Nat.lt_of_lt_of_le (hlt x hx j hs) (by simp)
      · intro x hx j hs
        rw [List.length_set]
        rcases List.mem_cons.1 hx with rfl | hx
        · obtain ⟨e, b, a, p, h, -⟩ := hs
          cases h
        · exact hlt x hx j hs

def Killed (i : ℕ) (log : List (Entry I σ Event)) : Prop := ∃ b a, .killed i b a ∈ log

def Entry.kills (i : ℕ) : Entry I σ Event → Bool
  | killed j _ _ => i = j
  | _ => false

lemma killed_iff {i : ℕ} {log : List (Entry I σ Event)} : log.any (·.kills i) ↔ Killed i log := by
  rw [List.any_eq_true]
  constructor
  · rintro ⟨x, hx, hkills⟩
    cases x with
    | killed j b a =>
        obtain rfl : i = j := by simpa [Entry.kills] using hkills
        exact ⟨b, a, hx⟩
    | _ => cases hkills
  · rintro ⟨b, a, hx⟩
    exact ⟨_, hx, by simp [Entry.kills]⟩

instance (i : ℕ) (log : List (Entry I σ Event)) : Decidable (Killed i log) := decidable_of_iff _ killed_iff

def Rule.alive (R : Rule I σ Event Oracle) : Rule I σ Event Oracle :=
  { R with act := fun i o s w => R.act i o s w ∧ ¬ Killed i w.log }

lemma Rule.Reaches.alive {R : Rule I σ Event Oracle} {s : σ} (h : R.Reaches M (Config.initial s) c) :
    R.alive.Reaches M (Config.initial s) c ∧
      ∀ i, Killed i c.world.log → c.threads[i]? = some .killed := by
  induction h with
  | refl => exact ⟨.refl, by simp [Config.initial, Killed]⟩
  | @tail c c' _ hstep ih =>
      obtain ⟨hreach, hkilled⟩ := ih
      obtain ⟨l, hl, hc⟩ := hstep
      have halive : R.alive.Allows c l := by
        cases l with
        | act i o =>
            refine fun s k ht => ⟨hl s k ht, fun hk => ?_⟩
            rw [hkilled i hk] at ht
            cases ht
        | env e => exact hl
        | kill i => exact hl
      refine ⟨hreach.tail ⟨l, halive, hc⟩, fun j hj => ?_⟩
      rcases step_cases hc with ⟨i, o, s, k, r, σ', -, ht, -, rfl⟩ | ⟨e, σ', p, -, -, rfl⟩ |
        ⟨i, s, k, -, ht, rfl⟩
      · have hj' := hkilled j (by simpa [Killed] using hj)
        have hij : i ≠ j := by
          rintro rfl
          rw [hj'] at ht
          cases ht
        simpa [List.getElem?_set_ne hij] using hj'
      · have hj' := hkilled j (by simpa [Killed] using hj)
        have hlt : j < c.threads.length := (List.getElem?_eq_some_iff.1 hj').1
        simpa [List.getElem?_append_left hlt] using hj'
      · by_cases hij : i = j
        · subst hij
          have hlt : i < c.threads.length := (List.getElem?_eq_some_iff.1 ht).1
          simp [hlt]
        · have hj' := hkilled j (by simpa [Killed, Ne.symm hij] using hj)
          simpa [List.getElem?_set_ne hij] using hj'

def Begins (M : Machine I Out σ Event Oracle) (args : ℕ → Event) (i : ℕ) (x : Entry I σ Event) : Prop :=
  ∃ b a p, x = .moved i (args i) b a ∧ M.env (args i) i b = some (a, some p)

/-- A rule that knows which event starts each call, and that a call has been started before it takes a step. -/
def Rule.given (R : Rule I σ Event Oracle) (M : Machine I Out σ Event Oracle) (args : ℕ → Event) :
    Rule I σ Event Oracle where
  act i o s w := R.act i o s w ∧ ∃ x ∈ w.log, Begins M args i x
  kill := R.kill
  env n e w := R.env n e w ∧ ∀ a p, M.env e n w.state = some (a, some p) → e = args n

lemma Rule.Reaches.given {R : Rule I σ Event Oracle} {s : σ} [Inhabited Event]
    (h : R.Reaches M (Config.initial s) c) :
    ∃ args : ℕ → Event, (∀ i < c.threads.length, ∃ x ∈ c.world.log, Begins M args i x) ∧
      ∀ args' : ℕ → Event, (∀ i < c.threads.length, args' i = args i) →
        (R.given M args').Reaches M (Config.initial s) c := by
  induction h with
  | refl => exact ⟨fun _ => default, by simp [Config.initial], fun args' _ => .refl⟩
  | @tail c c' _ hstep ih =>
      obtain ⟨args, hbegun, hreach⟩ := ih
      obtain ⟨l, hl, hc⟩ := hstep
      rcases step_cases hc with ⟨i, o, s, k, r, σ', rfl, ht, -, rfl⟩ | ⟨e, σ', p, rfl, hp, rfl⟩ |
        ⟨i, s, k, rfl, -, rfl⟩
      · refine ⟨args, fun j hj => ?_, fun args' hagree => ?_⟩
        · obtain ⟨x, hx, hb⟩ := hbegun j (by simpa using hj)
          exact ⟨x, List.mem_cons_of_mem _ hx, hb⟩
        · have hagree' : ∀ j < c.threads.length, args' j = args j := fun j hj => hagree j (by simpa using hj)
          have hi : i < c.threads.length := (List.getElem?_eq_some_iff.1 ht).1
          refine (hreach args' hagree').tail ⟨.act i o, fun s' k' ht' => ⟨hl s' k' ht', ?_⟩, hc⟩
          obtain ⟨x, hx, hb⟩ := hbegun i hi
          exact ⟨x, hx, by rwa [Begins, hagree' i hi]⟩
      · cases p with
        | none =>
            refine ⟨args, fun j hj => ?_, fun args' hagree => ?_⟩
            · obtain ⟨x, hx, hb⟩ := hbegun j (by simpa using hj)
              exact ⟨x, List.mem_cons_of_mem _ hx, hb⟩
            · refine (hreach args' fun j hj => hagree j (by simpa using hj)).tail ⟨.env e, ⟨hl, ?_⟩, hc⟩
              intro a q hq
              cases hp.symm.trans hq
        | some p =>
            have hone : (c.threads ++ (Option.map Thread.live (some p)).toList).length = c.threads.length + 1 := by
              simp
            obtain ⟨args₁, hself, hother⟩ : ∃ f : ℕ → Event, f c.threads.length = e ∧
                ∀ j < c.threads.length, f j = args j :=
              ⟨fun j => if j = c.threads.length then e else args j, if_pos rfl, fun j hj => if_neg (by omega)⟩
            refine ⟨args₁, fun j hj => ?_, fun args' hagree => ?_⟩
            · rw [hone] at hj
              by_cases hlt : j < c.threads.length
              · obtain ⟨x, hx, hb⟩ := hbegun j hlt
                exact ⟨x, List.mem_cons_of_mem _ hx, by rwa [Begins, hother j hlt]⟩
              · obtain rfl : j = c.threads.length := by omega
                exact ⟨_, List.mem_cons_self, c.world.state, σ', p, by rw [hself], by rwa [hself]⟩
            · rw [hone] at hagree
              have hearlier : ∀ j < c.threads.length, args' j = args j := by
                intro j hj
                rw [hagree j (by omega), hother j hj]
              have hn : args' c.threads.length = e := by rw [hagree _ (by omega), hself]
              exact (hreach args' hearlier).tail ⟨.env e, ⟨hl, fun _ _ _ => hn.symm⟩, hc⟩
      · refine ⟨args, fun j hj => ?_, fun args' hagree => ?_⟩
        · obtain ⟨x, hx, hb⟩ := hbegun j (by simpa using hj)
          exact ⟨x, List.mem_cons_of_mem _ hx, hb⟩
        · exact (hreach args' fun j hj => hagree j (by simpa using hj)).tail ⟨.kill i, hl, hc⟩

end VaultRun.Concurrency
