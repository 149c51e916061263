import Mathlib.Data.List.Induction
import Mathlib.Logic.Relation
set_option autoImplicit false

/-!
Programs over an explicit state, and the states a transition system reaches.
A program is a function from a state to a value and the next state; loops carry
their own bound and are shown not to reach it where that matters.
-/

namespace StateProgram

def Prog (σ α : Type) : Type := σ → α × σ

namespace Prog

variable {σ τ α β γ : Type}

protected def pure (a : α) : Prog σ α := fun s => (a, s)

protected def bind (m : Prog σ α) (f : α → Prog σ β) : Prog σ β :=
  fun s => f (m s).1 (m s).2

instance : Monad (Prog σ) where
  pure := Prog.pure
  bind := Prog.bind

def get : Prog σ σ := fun s => (s, s)

def gets (f : σ → α) : Prog σ α := fun s => (f s, s)

def modify (f : σ → σ) : Prog σ Unit := fun s => ((), f s)

@[simp] theorem pure_run (a : α) (s : σ) : (pure a : Prog σ α) s = (a, s) := rfl

@[simp] theorem bind_run (m : Prog σ α) (f : α → Prog σ β) (s : σ) :
    (m >>= f) s = f (m s).1 (m s).2 := rfl

@[simp] theorem map_run (f : α → β) (m : Prog σ α) (s : σ) :
    (f <$> m) s = (f (m s).1, (m s).2) := rfl

@[simp] theorem seqRight_run (m : Prog σ α) (k : Prog σ β) (s : σ) :
    (m *> k) s = k (m s).2 := rfl

@[simp] theorem get_run (s : σ) : (get : Prog σ σ) s = (s, s) := rfl

@[simp] theorem gets_run (f : σ → α) (s : σ) : gets f s = (f s, s) := rfl

@[simp] theorem modify_run (f : σ → σ) (s : σ) : modify f s = ((), f s) := rfl

@[simp] theorem ite_run (c : Prop) [Decidable c] (m k : Prog σ α) (s : σ) :
    (if c then m else k) s = if c then m s else k s := by split <;> rfl

/-- Run a program on a part of the state. -/
def zoom (view : σ → τ) (put : τ → σ → σ) (m : Prog τ α) : Prog σ α :=
  fun s => ((m (view s)).1, put (m (view s)).2 s)

@[simp] theorem zoom_run (view : σ → τ) (put : τ → σ → σ) (m : Prog τ α) (s : σ) :
    zoom view put m s = ((m (view s)).1, put (m (view s)).2 s) := rfl

/-- A loop with local state β: the body continues with `inl` and leaves with `inr`. -/
def iterate : Nat → (β → Prog σ (β ⊕ γ)) → (β → γ) → β → Prog σ γ
  | 0, _, out, b => pure (out b)
  | n + 1, body, out, b => do
    match ← body b with
    | .inl b' => iterate n body out b'
    | .inr c => pure c

theorem iterate_inl {body : β → Prog σ (β ⊕ γ)} {out : β → γ} {n : Nat} {b b' : β} {s : σ}
    (h : (body b s).1 = .inl b') :
    iterate (n + 1) body out b s = iterate n body out b' (body b s).2 := by simp [iterate, h]

theorem iterate_inr {body : β → Prog σ (β ⊕ γ)} {out : β → γ} {n : Nat} {b : β} {c : γ} {s : σ}
    (h : (body b s).1 = .inr c) : iterate (n + 1) body out b s = (c, (body b s).2) := by
  simp [iterate, h]

/-- A loop on a part of the state, where what is put is what the view shows of it, and putting
twice is putting once. -/
theorem zoom_iterate {view : σ → τ} {put : τ → σ → σ} (get_put : ∀ t s, view (put t s) = t)
    (put_get : ∀ s, put (view s) s = s) (put_put : ∀ t t' s, put t' (put t s) = put t' s)
    (body : β → Prog τ (β ⊕ γ)) (out : β → γ) (n : Nat) (b : β) :
    zoom view put (iterate n body out b) = iterate n (fun b => zoom view put (body b)) out b := by
  funext s
  induction n generalizing b s with
  | zero => exact congrArg (fun s' => (out b, s')) (put_get s)
  | succ n ih =>
    rw [zoom_run]
    cases hb : (body b (view s)).1 with
    | inl b' =>
      have hround : iterate (n + 1) (fun b => zoom view put (body b)) out b s =
          iterate n (fun b => zoom view put (body b)) out b' (zoom view put (body b) s).2 :=
        iterate_inl hb
      rw [iterate_inl hb, hround, ← ih, zoom_run, zoom_run, get_put, put_put]
    | inr c =>
      have hround : iterate (n + 1) (fun b => zoom view put (body b)) out b s =
          (c, (zoom view put (body b) s).2) := iterate_inr hb
      rw [iterate_inr hb, hround, zoom_run]

/-- The local state and the state in which the body of a loop runs, round by round. -/
def rounds : Nat → (β → Prog σ (β ⊕ γ)) → β → σ → List (β × σ)
  | 0, _, _, _ => []
  | n + 1, body, b, s =>
    (b, s) :: (match (body b s).1 with
      | .inl b' => rounds n body b' (body b s).2
      | .inr _ => [])

theorem rounds_inl {body : β → Prog σ (β ⊕ γ)} {n : Nat} {b b' : β} {s : σ}
    (h : (body b s).1 = .inl b') :
    rounds (n + 1) body b s = (b, s) :: rounds n body b' (body b s).2 := by simp [rounds, h]

theorem rounds_inr {body : β → Prog σ (β ⊕ γ)} {n : Nat} {b : β} {c : γ} {s : σ}
    (h : (body b s).1 = .inr c) : rounds (n + 1) body b s = [(b, s)] := by simp [rounds, h]

def forEach : List β → (β → Prog σ Unit) → Prog σ Unit
  | [], _ => pure ()
  | b :: bs, body => do
    body b
    forEach bs body

theorem forEach_append (bs cs : List β) (body : β → Prog σ Unit) (s : σ) :
    forEach (bs ++ cs) body s = forEach cs body (forEach bs body s).2 := by
  induction bs generalizing s with
  | nil => rfl
  | cons b bs ih => exact ih (body b s).2

/-- What a loop establishes: the body keeps I while it continues and ends in Q. -/
theorem iterate_rule {body : β → Prog σ (β ⊕ γ)} {out : β → γ}
    (I : β → σ → Prop) (Q : γ → σ → Prop)
    (next : ∀ b s b', I b s → (body b s).1 = .inl b' → I b' (body b s).2)
    (done : ∀ b s c, I b s → (body b s).1 = .inr c → Q c (body b s).2)
    (stop : ∀ b s, I b s → Q (out b) s) (n : Nat) {b : β} {s : σ} (h : I b s) :
    Q (iterate n body out b s).1 (iterate n body out b s).2 := by
  induction n generalizing b s with
  | zero => exact stop b s h
  | succ n ih =>
    cases hb : (body b s).1 with
    | inl b' =>
      have hn := next b s b' h hb
      simpa [iterate, hb] using ih hn
    | inr c =>
      have hd := done b s c h hb
      simpa [iterate, hb] using hd

/-- As `iterate_rule`, where a measure keeps the loop from running out of fuel. -/
theorem iterate_rule_of_lt {body : β → Prog σ (β ⊕ γ)} {out : β → γ}
    (μ : β → σ → Nat) (I : β → σ → Prop) (Q : γ → σ → Prop)
    (next : ∀ b s b', I b s → (body b s).1 = .inl b' →
      I b' (body b s).2 ∧ μ b' (body b s).2 < μ b s)
    (done : ∀ b s c, I b s → (body b s).1 = .inr c → Q c (body b s).2)
    (n : Nat) {b : β} {s : σ} (hn : μ b s < n) (h : I b s) :
    Q (iterate n body out b s).1 (iterate n body out b s).2 := by
  induction n generalizing b s with
  | zero => omega
  | succ n ih =>
    cases hb : (body b s).1 with
    | inl b' =>
      obtain ⟨hi, hlt⟩ := next b s b' h hb
      simpa [iterate, hb] using ih (by omega) hi
    | inr c =>
      have hd := done b s c h hb
      simpa [iterate, hb] using hd

theorem iterate_fuel {body : β → Prog σ (β ⊕ γ)} {out : β → γ} (μ : β → σ → Nat)
    (drop : ∀ b s b', (body b s).1 = .inl b' → μ b' (body b s).2 < μ b s)
    (n m : Nat) {b : β} {s : σ} (hn : μ b s < n) (hm : μ b s < m) :
    iterate n body out b s = iterate m body out b s := by
  induction n generalizing m b s with
  | zero => omega
  | succ n ih =>
    cases m with
    | zero => omega
    | succ m =>
      cases hb : (body b s).1 with
      | inl b' =>
        have hd := drop b s b' hb
        simp only [iterate, bind_run, hb]
        exact ih m (by omega) (by omega)
      | inr c => simp [iterate, hb]

/-! ## Refinement -/

/-- m over states σ is k over what a view shows of them: it returns the same value, and the view
shows the state that k leaves. -/
def Refines (view : σ → τ) (m : Prog σ α) (k : Prog τ α) : Prop :=
  ∀ s, k (view s) = ((m s).1, view (m s).2)

section Refines

variable {view : σ → τ}

theorem Refines.pure (a : α) : Refines view (pure a) (pure a) := fun _ => rfl

theorem Refines.bind {m : Prog σ α} {k : Prog τ α} {f : α → Prog σ β} {g : α → Prog τ β}
    (hm : Refines view m k) (hf : ∀ a, Refines view (f a) (g a)) :
    Refines view (m >>= f) (k >>= g) := by
  intro s
  rw [bind_run, bind_run, hm s]
  exact hf (m s).1 (m s).2

/-- A step on what the view does not show. -/
theorem Refines.hidden {f : σ → σ} (hf : ∀ s, view (f s) = view s) {m : Prog σ α} {k : Prog τ α}
    (hm : Refines view m k) : Refines view (Prog.modify f >>= fun _ => m) k := by
  intro s
  rw [bind_run, modify_run, ← hf s]
  exact hm (f s)

theorem Refines.zoom {put : τ → σ → σ} (hput : ∀ t s, view (put t s) = t) (k : Prog τ α) :
    Refines view (Prog.zoom view put k) k := by
  intro s
  rw [zoom_run, hput]

theorem Refines.iterate {body : β → Prog σ (β ⊕ γ)} {out : β → γ} {δ : Type}
    {body' : δ → Prog τ (δ ⊕ γ)} {out' : δ → γ} (proj : β → δ)
    (hbody : ∀ b, Refines view (Sum.map proj id <$> body b) (body' (proj b)))
    (hout : ∀ b, out' (proj b) = out b) (n : Nat) (b : β) :
    Refines view (Prog.iterate n body out b) (Prog.iterate n body' out' (proj b)) := by
  intro s
  induction n generalizing b s with
  | zero => exact congrArg (fun c => (c, view s)) (hout b)
  | succ n ih =>
    have hround := hbody b s
    rw [map_run] at hround
    cases hb : (body b s).1 with
    | inl b' =>
      have hleft : (body' (proj b) (view s)).1 = .inl (proj b') := by rw [hround, hb]; rfl
      rw [iterate_inl hb, iterate_inl hleft, hround]
      exact ih b' (body b s).2
    | inr c =>
      have hright : (body' (proj b) (view s)).1 = .inr c := by rw [hround, hb]; rfl
      rw [iterate_inr hb, iterate_inr hright, hround]

end Refines

/-- The program relates every state to the state it leaves. -/
def Keeps (R : σ → σ → Prop) (m : Prog σ α) : Prop := ∀ s, R s (m s).2

end Prog

/-- A relation between a state and a later one that any number of steps keep. -/
structure Frame {σ : Type} (R : σ → σ → Prop) : Prop where
  refl : ∀ s, R s s
  trans : ∀ {a b c}, R a b → R b c → R a c

namespace Prog

variable {σ τ α β γ : Type} {R : σ → σ → Prop}

theorem Keeps.pure (hR : Frame R) (a : α) : Keeps R (pure a : Prog σ α) := fun s => hR.refl s

theorem Keeps.get (hR : Frame R) : Keeps R (Prog.get : Prog σ σ) := fun s => hR.refl s

theorem Keeps.gets (hR : Frame R) (f : σ → α) : Keeps R (Prog.gets f) := fun s => hR.refl s

theorem Keeps.bind (hR : Frame R) {m : Prog σ α} {f : α → Prog σ β} (hm : Keeps R m)
    (hf : ∀ a, Keeps R (f a)) : Keeps R (m >>= f) :=
  fun s => hR.trans (hm s) (hf _ _)

theorem Keeps.map {f : α → β} {m : Prog σ α} (hm : Keeps R m) : Keeps R (f <$> m) := fun s => hm s

theorem Keeps.ite {c : Prop} [Decidable c] {m k : Prog σ α} (hm : Keeps R m) (hk : Keeps R k) :
    Keeps R (if c then m else k) := by
  split
  · exact hm
  · exact hk

theorem Keeps.iterate (hR : Frame R) {body : β → Prog σ (β ⊕ γ)} {out : β → γ}
    (hb : ∀ b, Keeps R (body b)) (n : Nat) (b : β) : Keeps R (Prog.iterate n body out b) := by
  intro s
  exact iterate_rule (I := fun _ t => R s t) (Q := fun _ t => R s t)
    (fun b t _ h _ => hR.trans h (hb b t)) (fun b t _ h _ => hR.trans h (hb b t))
    (fun _ _ h => h) n (hR.refl s)

theorem Keeps.forEach_mem (hR : Frame R) {body : β → Prog σ Unit} (bs : List β)
    (hb : ∀ b ∈ bs, Keeps R (body b)) : Keeps R (Prog.forEach bs body) := by
  induction bs with
  | nil => exact Keeps.pure hR ()
  | cons b bs ih =>
    exact Keeps.bind hR (hb b (by simp)) fun _ => ih fun c hc => hb c (by simp [hc])

theorem Keeps.forEach (hR : Frame R) {body : β → Prog σ Unit} (hb : ∀ b, Keeps R (body b))
    (bs : List β) : Keeps R (Prog.forEach bs body) := .forEach_mem hR bs fun b _ => hb b

end Prog

/-- The states reached from the initial ones by steps that each meet the guard. -/
inductive Reach {σ ι : Type} (init : σ → Prop) (step : σ → ι → σ) (guard : σ → ι → Prop) :
    σ → Prop where
  | init {s : σ} : init s → Reach init step guard s
  | step {s : σ} (i : ι) : Reach init step guard s → guard s i → Reach init step guard (step s i)

section Reach

variable {σ ι : Type} {init : σ → Prop} {step : σ → ι → σ} {guard guard' : σ → ι → Prop}

/-- What holds at the start and survives every guarded step holds in every reached state. -/
theorem Reach.invariant {I : σ → Prop} (start : ∀ s, init s → I s)
    (preserved : ∀ s i, I s → guard s i → I (step s i)) {s : σ}
    (h : Reach init step guard s) : I s := by
  induction h with
  | init hs => exact start _ hs
  | step i _ hg ih => exact preserved _ i ih hg

/-- As `Reach.invariant`, with what is already known of reached states. -/
theorem Reach.invariant_of {I : σ → Prop} (start : ∀ s, init s → I s)
    (preserved : ∀ s i, Reach init step guard s → I s → guard s i → I (step s i)) {s : σ}
    (h : Reach init step guard s) : I s := by
  induction h with
  | init hs => exact start _ hs
  | step i hr hg ih => exact preserved _ i hr ih hg

theorem Reach.mono (weaker : ∀ s i, guard s i → guard' s i) {s : σ}
    (h : Reach init step guard s) : Reach init step guard' s := by
  induction h with
  | init hs => exact .init hs
  | step i _ hg ih => exact .step i ih (weaker _ _ hg)

theorem Reach.foldl {s : σ} (hs : Reach init step (fun _ _ => True) s) (is : List ι) :
    Reach init step (fun _ _ => True) (is.foldl step s) := by
  induction is generalizing s with
  | nil => exact hs
  | cons i is ih => exact ih (.step i hs trivial)

end Reach

/-- A value that steps keep, reset to d or set (S): where it differs from d some step of the run
set it, and no step since then is one that clears it (C). -/
theorem exists_last_set {σ ι α : Type} {step : σ → ι → σ} {f : σ → α} {d : α}
    {S : σ → ι → α → Prop} {C : σ → ι → Prop}
    (each : ∀ s i, f (step s i) = f s ∨ f (step s i) = d ∨ S s i (f (step s i)))
    {s : σ} (start : f s = d) (is : List ι)
    (cleared : ∀ pre i post, is = pre ++ i :: post → C (pre.foldl step s) i →
      f (step (pre.foldl step s) i) = d)
    (h : f (is.foldl step s) ≠ d) :
    ∃ pre i post, is = pre ++ i :: post ∧ S (pre.foldl step s) i (f (is.foldl step s)) ∧
      ∀ before j after, post = before ++ j :: after →
        ¬ C ((pre ++ i :: before).foldl step s) j := by
  induction is using List.reverseRecOn with
  | nil => exact absurd start h
  | append_singleton is j ih =>
    have hlast : ¬ C (is.foldl step s) j := fun hc =>
      h (by simpa using cleared is j [] rfl hc)
    simp only [List.foldl_append, List.foldl_cons, List.foldl_nil] at h ⊢
    rcases each (is.foldl step s) j with hk | hd | hs
    · have hcleared : ∀ pre i post, is = pre ++ i :: post → C (pre.foldl step s) i →
          f (step (pre.foldl step s) i) = d := fun pre i post he =>
        cleared pre i (post ++ [j]) (by simp [he])
      obtain ⟨pre, i, post, rfl, hset, hsince⟩ := ih hcleared (hk ▸ h)
      refine ⟨pre, i, post ++ [j], by simp, hk ▸ hset, fun before k after he => ?_⟩
      cases after using List.reverseRecOn with
      | nil =>
        obtain ⟨rfl, rfl⟩ : post = before ∧ j = k := by simpa using he
        simpa using hlast
      | append_singleton after l =>
        have he' : post ++ [j] = (before ++ k :: after) ++ [l] := by simpa using he
        simpa using hsince before k after (List.append_inj_left' he' rfl)
    · exact absurd hd h
    · exact ⟨is, j, [], rfl, hs, fun before k after he => by simp at he⟩

end StateProgram
