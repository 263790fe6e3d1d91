import VaultRun.Concurrency.Machine

/-!
A call that runs alone: big steps of a program over a shared state, the run of a machine they stand for, and
the runs of one program over two states that it cannot tell apart.
-/

namespace VaultRun.Concurrency

open Relation

variable {I : Interface} {Out σ Event Oracle α β : Type}

/-- With outcomes that `ok` allows, call `i` takes the program from the first state to its end in the last. -/
inductive Evals (M : Machine I Out σ Event Oracle) (ok : Oracle → I.Stmt → Prop) (i : ℕ) :
    Program I α → σ → Except I.Error α → σ → Prop
  | ret (a : α) (b : σ) : Evals M ok i (.ret a) b (.ok a) b
  | raise (e : I.Error) (b : σ) : Evals M ok i (.raise e) b (.error e) b
  | call {s : I.Stmt} {k : I.Reply s → Program I α} {o : Oracle} {r : I.Reply s} {b a b' : σ}
      {out : Except I.Error α} (ho : ok o s) (he : M.exec o i s b = some (r, a))
      (h : Evals M ok i (k r) a out b') : Evals M ok i (.call s k) b out b'

section Rules

variable {M : Machine I Out σ Event Oracle} {ok : Oracle → I.Stmt → Prop} {i : ℕ} {b a b' : σ}

lemma evals_bind {p : Program I α} {f : α → Program I β} {x : α} {out : Except I.Error β}
    (hp : Evals M ok i p b (.ok x) a) (hf : Evals M ok i (f x) a out b') : Evals M ok i (p >>= f) b out b' := by
  generalize hx : (Except.ok x : Except I.Error α) = r at hp
  induction hp with
  | ret y c =>
      obtain rfl := Except.ok.inj hx
      exact hf
  | raise e c => cases hx
  | call ho he _ ih => exact .call ho he (ih hf hx)

lemma evals_catching {p : Program I α} {f : I.Error → Program I α} {x : α}
    (hp : Evals M ok i p b (.ok x) a) : Evals M ok i (p.catching f) b (.ok x) a := by
  generalize hx : (Except.ok x : Except I.Error α) = r at hp
  induction hp with
  | ret y c => exact .ret y c
  | raise e c => cases hx
  | call ho he _ ih => exact .call ho he (ih hx)

lemma evals_attempt {p : Program I α} {x : Except I.Error α} (hp : Evals M ok i p b x a) :
    Evals M ok i p.attempt b (.ok x) a := by
  induction hp with
  | ret y c => exact .ret _ c
  | raise e c => exact .ret _ c
  | call ho he _ ih => exact .call ho he ih

lemma evals_map {p : Program I α} {g : α → β} {x : α} (hp : Evals M ok i p b (.ok x) a) :
    Evals M ok i (g <$> p) b (.ok (g x)) a :=
  evals_bind hp (.ret _ _)

lemma evals_await {s : I.Stmt} {o : Oracle} {x : I.Result s} (ho : ok o s)
    (he : M.exec o i s b = some (.ok x, a)) : Evals M ok i (Program.await s) b (.ok x) a :=
  .call ho he (.ret x a)

lemma evals_await_bind_iff {s : I.Stmt} {f : I.Result s → Program I α} {x : I.Result s} {out : Except I.Error α}
    (hexec : ∀ o, ok o s → M.exec o i s b = some (.ok x, a)) (hok : ∃ o, ok o s) :
    Evals M ok i (Program.await s >>= f) b out b' ↔ Evals M ok i (f x) a out b' := by
  constructor
  · intro h
    cases h with
    | call ho he h =>
        obtain ⟨rfl, rfl⟩ := Prod.mk.inj (Option.some.inj ((hexec _ ho).symm.trans he))
        exact h
  · intro h
    obtain ⟨o, ho⟩ := hok
    exact .call ho (hexec o ho) h

def Thread.over : Except I.Error Out → Thread I Out
  | .ok a => .live (.ret a)
  | .error e => .live (.raise e)

lemma Evals.reaches {R : Rule I σ Event Oracle} {p : Program I Out} {out : Except I.Error Out}
    {c : Config I Out σ Event} (h : Evals M ok i p b out b') (hR : ∀ o s w, ok o s → R.act i o s w)
    (hc : c.threads[i]? = some (.live p)) (hb : c.world.state = b) :
    ∃ c', R.Reaches M c c' ∧ c'.threads = c.threads.set i (Thread.over out) ∧ c'.world.state = b' := by
  have hset {c : Config I Out σ Event} {t : Thread I Out} (hc : c.threads[i]? = some t) :
      c.threads = c.threads.set i t := by
    obtain ⟨hlt, rfl⟩ := List.getElem?_eq_some_iff.1 hc
    exact (List.set_getElem_self hlt).symm
  induction h generalizing c with
  | ret a d => exact ⟨c, .refl, hset hc, hb⟩
  | raise e d => exact ⟨c, .refl, hset hc, hb⟩
  | @call s k o r b a b' out ho he _ ih =>
      subst hb
      have hstep : M.step c (.act i o) = some ⟨c.world.answer i s r a, c.threads.set i (.live (k r))⟩ := by
        simp only [Machine.step, hc, Option.bind_some, Machine.actOn, he, Option.map_some]
      have hlt : i < c.threads.length := (List.getElem?_eq_some_iff.1 hc).1
      obtain ⟨c', hreach, hthreads, hstate⟩ :=
        ih (c := ⟨c.world.answer i s r a, c.threads.set i (.live (k r))⟩) (by simp [hlt]) rfl
      refine ⟨c', .head ⟨_, (Rule.allows_act hc).2 (hR o s _ ho), hstep⟩ hreach, ?_, hstate⟩
      rw [hthreads, List.set_set]

end Rules

def Ends (M : Machine I Out σ Event Oracle) (ok : Oracle → I.Stmt → Prop) (i : ℕ) (Q : Except I.Error α → σ → Prop)
    (p : Program I α) (b : σ) : Prop :=
  ∃ r b', Evals M ok i p b r b' ∧ Q r b'

section Ends

variable {M : Machine I Out σ Event Oracle} {ok : Oracle → I.Stmt → Prop} {i : ℕ} {b : σ}
  {Q Q' : Except I.Error α → σ → Prop} {T : Except I.Error β → σ → Prop}

lemma ends_ret {a : α} (h : Q (.ok a) b) : Ends M ok i Q (.ret a) b := ⟨_, _, .ret a b, h⟩

lemma Ends.mono {p : Program I α} (h : Ends M ok i Q p b) (hQ : ∀ r b', Q r b' → Q' r b') : Ends M ok i Q' p b := by
  obtain ⟨r, b', hp, hr⟩ := h
  exact ⟨r, b', hp, hQ r b' hr⟩

lemma ends_bind {p : Program I α} {f : α → Program I β}
    (h : Ends M ok i (fun r b' => match r with
      | .ok a => Ends M ok i T (f a) b'
      | .error e => T (.error e) b') p b) : Ends M ok i T (p >>= f) b := by
  obtain ⟨r, b', hp, hr⟩ := h
  induction hp with
  | ret a c =>
      obtain ⟨r, b', hf, hr⟩ := hr
      exact ⟨r, b', hf, hr⟩
  | raise e c => exact ⟨_, _, .raise e c, hr⟩
  | call ho he _ ih =>
      obtain ⟨r, b', hf, hr⟩ := ih hr
      exact ⟨r, b', .call ho he hf, hr⟩

lemma ends_catching {p : Program I α} {f : I.Error → Program I α}
    (h : Ends M ok i (fun r b' => match r with
      | .ok a => Q (.ok a) b'
      | .error e => Ends M ok i Q (f e) b') p b) : Ends M ok i Q (p.catching f) b := by
  obtain ⟨r, b', hp, hr⟩ := h
  induction hp with
  | ret a c => exact ⟨_, _, .ret a c, hr⟩
  | raise e c =>
      obtain ⟨r, b', hf, hr⟩ := hr
      exact ⟨r, b', hf, hr⟩
  | call ho he _ ih =>
      obtain ⟨r, b', hf, hr⟩ := ih hr
      exact ⟨r, b', .call ho he hf, hr⟩

lemma ends_attempt {p : Program I α} {T : Except I.Error (Except I.Error α) → σ → Prop}
    (h : Ends M ok i (fun r b' => T (.ok r) b') p b) : Ends M ok i T p.attempt b := by
  obtain ⟨r, b', hp, hr⟩ := h
  exact ⟨_, _, evals_attempt hp, hr⟩

lemma ends_map {p : Program I α} {g : α → β} (h : Ends M ok i (fun r b' => T (r.map g) b') p b) :
    Ends M ok i T (g <$> p) b := by
  refine ends_bind (h.mono fun r b' hr => ?_)
  cases r with
  | ok a => exact ends_ret hr
  | error e => exact hr

lemma ends_await {s : I.Stmt} {o : Oracle} {r : I.Reply s} {a : σ} {Q : Except I.Error (I.Result s) → σ → Prop}
    (ho : ok o s) (he : M.exec o i s b = some (r, a)) (h : Q r a) : Ends M ok i Q (Program.await s) b := by
  cases r with
  | ok x => exact ⟨_, _, .call ho he (.ret x a), h⟩
  | error e => exact ⟨_, _, .call ho he (.raise e a), h⟩

lemma ends_await_bind {s : I.Stmt} {o : Oracle} {x : I.Result s} {a : σ} {f : I.Result s → Program I β} (ho : ok o s)
    (he : M.exec o i s b = some (.ok x, a)) (h : Ends M ok i T (f x) a) :
    Ends M ok i T (Program.await s >>= f) b :=
  ends_bind (ends_await ho he h)

/-- `J` relates what is left of a loop and what it has gathered to the state. -/
lemma ends_loop {f : β → α → Program I β} {J : List α → β → σ → Prop} {xs : List α} {acc : β}
    (hf : ∀ x xs acc b, J (x :: xs) acc b →
      Ends M ok i (fun r b' => ∃ acc', r = .ok acc' ∧ J xs acc' b') (f acc x) b)
    (h : J xs acc b) : Ends M ok i (fun r b' => ∃ acc', r = .ok acc' ∧ J [] acc' b') (Program.loop f acc xs) b := by
  induction xs generalizing acc b with
  | nil => exact ends_ret ⟨acc, rfl, h⟩
  | cons x xs ih =>
      refine ends_bind ((hf x xs acc b h).mono fun r b' hr => ?_)
      obtain ⟨acc', rfl, hJ⟩ := hr
      exact ih hJ

section Passes

variable {f : ℕ → α → Program I ℕ} {J : List α → σ → Prop} {xs : List α} {n limit k : ℕ}

lemma ends_count (hf : ∀ n x xs b, J (x :: xs) b → Ends M ok i (fun r b' => r = .ok (n + 1) ∧ J xs b') (f n x) b)
    (h : J xs b) : Ends M ok i (fun r b' => r = .ok (n + xs.length) ∧ J [] b') (Program.loop f n xs) b := by
  refine (ends_loop (J := fun ys m b' => m + ys.length = n + xs.length ∧ J ys b') (fun x ys m b' hJ => ?_)
    ⟨rfl, h⟩).mono ?_
  · obtain ⟨hlen, hJ⟩ := hJ
    refine (hf m x ys b' hJ).mono ?_
    rintro r b'' ⟨rfl, hJ'⟩
    rw [List.length_cons] at hlen
    exact ⟨m + 1, rfl, by omega, hJ'⟩
  · rintro r b' ⟨m, rfl, hlen, hJ⟩
    rw [List.length_nil, Nat.add_zero] at hlen
    exact ⟨by rw [hlen], hJ⟩

lemma ends_pass (hf : ∀ n x xs b, J (x :: xs) b → Ends M ok i (fun r b' => r = .ok (n + 1) ∧ J xs b') (f n x) b)
    (h : J xs b) : Ends M ok i (fun r b' => r = .ok (xs.take limit).length ∧ J (xs.drop limit) b')
      (Program.loop f 0 (xs.take limit)) b := by
  refine (ends_count (J := fun ys b' => J (ys ++ xs.drop limit) b') (fun n x ys b' hJ => hf n x _ b' hJ)
    (by rwa [List.take_append_drop])).mono ?_
  rintro r b' ⟨rfl, hJ⟩
  exact ⟨by rw [Nat.zero_add], hJ⟩

def Program.passes (p : Program I ℕ) (k : ℕ) : Program I ℕ :=
  Program.loop (fun n _ => (n + ·) <$> p) 0 (List.replicate k ())

lemma ends_passes {p : Program I ℕ} (hp : ∀ xs b, J xs b →
      Ends M ok i (fun r b' => r = .ok (xs.take limit).length ∧ J (xs.drop limit) b') p b)
    (h : J xs b) (hk : xs.length ≤ k * limit) :
    Ends M ok i (fun r b' => r = .ok xs.length ∧ J [] b') (p.passes k) b := by
  refine (ends_loop (J := fun us n b' => ∃ rem, J rem b' ∧ n + rem.length = xs.length ∧
    rem.length ≤ us.length * limit) (fun u us n b' hJ => ?_) ⟨xs, h, by simp, by simpa using hk⟩).mono ?_
  · obtain ⟨rem, hJ, hlen, hbound⟩ := hJ
    refine ends_map ((hp rem b' hJ).mono ?_)
    rintro r b'' ⟨rfl, hJ'⟩
    refine ⟨n + (rem.take limit).length, rfl, _, hJ', ?_, ?_⟩
    · rw [List.length_take, List.length_drop]
      omega
    · rw [List.length_cons, Nat.succ_mul] at hbound
      rw [List.length_drop]
      omega
  · rintro r b' ⟨n, rfl, rem, hJ, hlen, hbound⟩
    obtain rfl : rem = [] := List.eq_nil_of_length_eq_zero (by simpa using hbound)
    rw [List.length_nil, Nat.add_zero] at hlen
    exact ⟨by rw [hlen], hJ⟩

end Passes

end Ends

section Lockstep

/-- Call `i` runs its program with no one else there; `os` says how each of its statements fares. -/
def runAlone (M : Machine I Out σ Event Oracle) (i : ℕ) :
    Program I α → List Oracle → σ → Option (Except I.Error α × σ)
  | .ret a, _, b => some (.ok a, b)
  | .raise e, _, b => some (.error e, b)
  | .call _ _, [], _ => none
  | .call s k, o :: os, b => (M.exec o i s b).bind fun a => runAlone M i (k a.1) os a.2

def Agree {A : Type} (R : σ → σ → Prop) (x y : A × σ) : Prop := x.1 = y.1 ∧ R x.2 y.2

variable {M : Machine I Out σ Event Oracle} {i : ℕ} {R : σ → σ → Prop} {φ : I.Stmt → Prop} {p : Program I α}
  {os : List Oracle} {b b' : σ}

/-- Where no statement can tell two states apart, the whole program cannot. -/
lemma runAlone_agree (hφ : ∀ o s b b', φ s → R b b' → Option.Rel (Agree R) (M.exec o i s b) (M.exec o i s b'))
    (hp : p.Uses φ) (h : R b b') : Option.Rel (Agree R) (runAlone M i p os b) (runAlone M i p os b') := by
  induction p generalizing os b b' with
  | ret a => exact .some ⟨rfl, h⟩
  | raise e => exact .some ⟨rfl, h⟩
  | call s k ih =>
      cases os with
      | nil => exact .none
      | cons o os =>
          have hrel := hφ o s b b' hp.1 h
          simp only [runAlone]
          cases he : M.exec o i s b <;> cases he' : M.exec o i s b' <;> rw [he, he'] at hrel <;> cases hrel
          · exact .none
          · rename_i x y hxy
            rw [Option.bind_some, Option.bind_some, ← hxy.1]
            exact ih x.1 (hp.2 x.1) hxy.2

lemma map_fst_of_agree {A : Type} {x y : Option (A × σ)} (h : Option.Rel (Agree R) x y) :
    x.map Prod.fst = y.map Prod.fst := by
  cases h with
  | none => rfl
  | some hxy => simp [hxy.1]

end Lockstep

end VaultRun.Concurrency
