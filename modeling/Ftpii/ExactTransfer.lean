import Ftpii.Runs
import Ftpii.Sending
set_option autoImplicit false

/-!
The calls that transfer_exact makes of its transferrer, whatever these return: what each asks for,
what they hand over together, and how often one is repeated with a smaller buffer.
-/

namespace Ftpii
open StateProgram Prog

/-- A transferrer moves no more than it is asked to and leaves NET_BUFFER_SIZE alone. -/
structure Transferrer (f : Int → Str → Os Int) : Prop where
  le : ∀ s chunk w, (f s chunk w).1 ≤ chunk.length
  size : ∀ s chunk w, (f s chunk w).2.netBufferSize = w.netBufferSize

def World.Sized (w : World) : Prop :=
  w.netBufferSize = MAX_NET_BUFFER_SIZE ∨ w.netBufferSize = MIN_NET_BUFFER_SIZE

/-- The retries that NET_BUFFER_SIZE still allows. -/
def World.credit (w : World) : Nat := if w.netBufferSize = MAX_NET_BUFFER_SIZE then 1 else 0

/-- A call: the bytes that remain, the size in force and the result. -/
structure TransferCall where
  rest : Str
  size : Nat
  result : Int
  deriving DecidableEq

namespace TransferCall

def chunk (c : TransferCall) : Str := c.rest.take (min c.rest.length c.size)

def accepted (c : TransferCall) : Str := c.chunk.take c.result.toNat

def Retried (c : TransferCall) : Prop := c.result = -EINVAL ∧ c.size = MAX_NET_BUFFER_SIZE

instance (c : TransferCall) : Decidable c.Retried :=
  inferInstanceAs (Decidable (c.result = -EINVAL ∧ c.size = MAX_NET_BUFFER_SIZE))

theorem Retried.neg {c : TransferCall} (h : c.Retried) : c.result < 0 := by
  rw [h.1]
  decide

theorem accepted_of_nonpos {c : TransferCall} (h : c.result ≤ 0) : c.accepted = [] := by
  have hz : c.result.toNat = 0 := by omega
  rw [accepted, hz, List.take_zero]

theorem accepted_append {c : TransferCall} (h : c.result ≤ c.chunk.length) :
    c.accepted ++ c.rest.drop c.result.toNat = c.rest := by
  have hlen : c.result.toNat ≤ min c.rest.length c.size := by
    simp only [chunk, List.length_take] at h
    omega
  rw [accepted, chunk, List.take_take, min_eq_left hlen, List.take_append_drop]

theorem length_chunk {c : TransferCall} (hr : c.rest ≠ []) (hs : 0 < c.size) :
    1 ≤ c.chunk.length ∧ c.chunk.length ≤ c.size := by
  have hpos := List.length_pos_of_ne_nil hr
  simp only [chunk, List.length_take]
  omega

end TransferCall

open TransferCall

/-- The call that a round of the loop makes while bytes remain. -/
def transferCall (s : Int) (f : Int → Str → Os Int) (round : Str × World) : Option TransferCall :=
  if round.1 = [] then none
  else
    let size := round.2.netBufferSize
    some { rest := round.1, size,
           result := (f s (round.1.take (min round.1.length size)) round.2).1 }

def loopCalls (n : Nat) (s : Int) (f : Int → Str → Os Int) (rest : Str) (w : World) :
    List TransferCall :=
  (rounds n (transferStep s f) rest w).filterMap (transferCall s f)

def transferCalls (s : Int) (buf : Str) (f : Int → Str → Os Int) (w : World) : List TransferCall :=
  loopCalls (buf.length + 2) s f buf (setBlocking s true w).2

/-- The world after a call: the transferrer's, with the smaller buffer where the call is made
again. -/
def TransferCall.make (s : Int) (f : Int → Str → Os Int) (w : World) (c : TransferCall) : World :=
  let v := (f s c.chunk w).2
  if c.Retried then (shrinkBuffer v).2 else v

/-- These calls of the transferrer, in this order, and nothing else lead from u to v. -/
structure Made (s : Int) (f : Int → Str → Os Int) (u : World) (calls : List TransferCall)
    (v : World) : Prop where
  results : ∀ pre c post, calls = pre ++ c :: post →
    c.size = (pre.foldl (TransferCall.make s f) u).netBufferSize ∧
      c.result = (f s c.chunk (pre.foldl (TransferCall.make s f) u)).1
  world : v = calls.foldl (TransferCall.make s f) u

section Made

variable {s : Int} {f : Int → Str → Os Int} {u v : World} {c : TransferCall}
  {calls : List TransferCall}

theorem Made.nil : Made s f u [] u := ⟨by simp, rfl⟩

theorem Made.cons (hsize : c.size = u.netBufferSize) (hres : c.result = (f s c.chunk u).1)
    (h : Made s f (c.make s f u) calls v) : Made s f u (c :: calls) v where
  results pre d post he := by
    rcases List.cons_eq_append_iff.mp he with ⟨rfl, hd⟩ | ⟨pre, rfl, hd⟩
    · obtain ⟨rfl, -⟩ : d = c ∧ post = calls := by simpa using hd
      exact ⟨hsize, hres⟩
    · exact h.results pre d post hd
  world := h.world

theorem Made.head (h : Made s f u (c :: calls) v) : c.result = (f s c.chunk u).1 :=
  (h.results [] c calls rfl).2

theorem Made.tail (h : Made s f u (c :: calls) v) : Made s f (c.make s f u) calls v where
  results pre d post he := h.results (c :: pre) d post (by rw [he, List.cons_append])
  world := h.world

end Made

/-- What the calls amount to from a world w to a world w', with the result r of the loop. -/
structure ExactTransfer (buf : Str) (w : World) (calls : List TransferCall) (r : Int)
    (w' : World) : Prop where
  asks : ∀ c ∈ calls, 1 ≤ c.chunk.length ∧ c.chunk.length ≤ c.size
  places : ∀ pre c post, calls = pre ++ c :: post → pre.flatMap accepted ++ c.rest = buf
  handed : calls.flatMap accepted <+: buf
  zero : r = 0 ↔ calls.flatMap accepted = buf
  first : buf ≠ [] → ∃ c post, calls = c :: post ∧ c.size = w.netBufferSize
  again : ∀ pre c post, calls = pre ++ c :: post → c.Retried →
    ∃ d post', post = d :: post' ∧ d.rest = c.rest ∧ d.size = MIN_NET_BUFFER_SIZE
  last : ∀ pre c post, calls = pre ++ c :: post → c.result ≤ 0 → ¬ c.Retried → post = []
  budget : calls.countP (fun c => decide c.Retried) + w'.credit = w.credit
  sized : w'.Sized
  count : calls.length ≤ buf.length + w.credit

namespace ExactTransfer

variable {rest : Str} {w v w' : World} {calls : List TransferCall} {r : Int} {c : TransferCall}

theorem nil (hw : w.Sized) : ExactTransfer [] w [] 0 w :=
  { asks := by simp, places := by simp, handed := by simp, zero := by simp, first := by simp
    again := by simp, last := by simp, budget := by simp, sized := hw, count := by simp }

theorem fail (hw : w.Sized) (hsize : v.netBufferSize = w.netBufferSize)
    (hc : c.rest ≠ []) (hcs : c.size = w.netBufferSize) (hle : c.result ≤ 0)
    (hnot : ¬ c.Retried) (hr : r < 0) : ExactTransfer c.rest w [c] r v where
  asks := by
    have hpos : 0 < c.size := by
      rw [hcs]
      rcases hw with h | h <;> rw [h] <;> decide
    simpa using length_chunk hc hpos
  places pre d post h := by
    obtain ⟨rfl, rfl, rfl⟩ : pre = [] ∧ c = d ∧ post = [] := by
      cases pre <;> simp_all
    simp
  handed := by simp [accepted_of_nonpos hle]
  zero := by
    simp only [List.flatMap_cons, accepted_of_nonpos hle, List.flatMap_nil, List.append_nil]
    exact ⟨fun h => absurd h hr.ne, fun h => absurd h.symm hc⟩
  first _ := ⟨c, [], rfl, hcs⟩
  again pre d post h hd := by
    obtain ⟨rfl, rfl, rfl⟩ : pre = [] ∧ c = d ∧ post = [] := by
      cases pre <;> simp_all
    exact absurd hd hnot
  last pre d post h _ _ := by
    cases pre <;> simp_all
  budget := by simp [hnot, World.credit, hsize]
  sized := by simpa only [World.Sized, hsize] using hw
  count := by
    have hpos := List.length_pos_of_ne_nil hc
    simp only [List.length_singleton]
    omega

theorem accept (h : ExactTransfer (c.rest.drop c.result.toNat) v calls r w') (hw : w.Sized)
    (hsize : v.netBufferSize = w.netBufferSize) (hc : c.rest ≠ [])
    (hcs : c.size = w.netBufferSize) (hpos : 0 < c.result) (hle : c.result ≤ c.chunk.length) :
    ExactTransfer c.rest w (c :: calls) r w' where
  asks := by
    have hsz : 0 < c.size := by
      rw [hcs]
      rcases hw with h | h <;> rw [h] <;> decide
    simpa using ⟨length_chunk hc hsz, h.asks⟩
  places pre d post he := by
    rcases List.cons_eq_append_iff.mp he with ⟨rfl, hd⟩ | ⟨pre, rfl, hd⟩
    · obtain ⟨rfl, -⟩ : d = c ∧ post = calls := by simpa using hd
      rfl
    · rw [List.flatMap_cons, List.append_assoc, h.places pre d post hd, accepted_append hle]
  handed := by
    obtain ⟨tail, ht⟩ := h.handed
    refine ⟨tail, ?_⟩
    rw [List.flatMap_cons, List.append_assoc, ht, accepted_append hle]
  zero := by
    rw [h.zero, List.flatMap_cons]
    constructor
    · intro he
      rw [he, accepted_append hle]
    · intro he
      rw [← accepted_append hle] at he
      exact List.append_cancel_left he
  first _ := ⟨c, calls, rfl, hcs⟩
  again pre d post he hd := by
    rcases List.cons_eq_append_iff.mp he with ⟨rfl, hd'⟩ | ⟨pre, rfl, hd'⟩
    · obtain ⟨rfl, -⟩ : d = c ∧ post = calls := by simpa using hd'
      have hneg := hd.neg
      omega
    · exact h.again pre d post hd' hd
  last pre d post he hd hnot := by
    rcases List.cons_eq_append_iff.mp he with ⟨rfl, hd'⟩ | ⟨pre, rfl, hd'⟩
    · obtain ⟨rfl, -⟩ : d = c ∧ post = calls := by simpa using hd'
      omega
    · exact h.last pre d post hd' hd hnot
  budget := by
    have hnot : ¬ c.Retried := fun hr => by
      have hneg := hr.neg
      omega
    have hcredit : v.credit = w.credit := by simp only [World.credit, hsize]
    simpa [hnot, hcredit] using h.budget
  sized := h.sized
  count := by
    have hcount := h.count
    have hrest := List.length_pos_of_ne_nil hc
    have hcredit : v.credit = w.credit := by simp only [World.credit, hsize]
    rw [List.length_drop, hcredit] at hcount
    rw [List.length_cons]
    omega

theorem retry (h : ExactTransfer c.rest v calls r w') (hw : w.Sized)
    (hsize : v.netBufferSize = MIN_NET_BUFFER_SIZE) (hc : c.rest ≠ [])
    (hcs : c.size = w.netBufferSize) (hretried : c.Retried) :
    ExactTransfer c.rest w (c :: calls) r w' where
  asks := by
    have hsz : 0 < c.size := by
      rw [hcs]
      rcases hw with h | h <;> rw [h] <;> decide
    simpa using ⟨length_chunk hc hsz, h.asks⟩
  places pre d post he := by
    rcases List.cons_eq_append_iff.mp he with ⟨rfl, hd⟩ | ⟨pre, rfl, hd⟩
    · obtain ⟨rfl, -⟩ : d = c ∧ post = calls := by simpa using hd
      rfl
    · rw [List.flatMap_cons, accepted_of_nonpos hretried.neg.le, List.nil_append,
        h.places pre d post hd]
  handed := by simpa [accepted_of_nonpos hretried.neg.le] using h.handed
  zero := by simpa [accepted_of_nonpos hretried.neg.le] using h.zero
  first _ := ⟨c, calls, rfl, hcs⟩
  again pre d post he hd := by
    rcases List.cons_eq_append_iff.mp he with ⟨rfl, hd'⟩ | ⟨pre, rfl, hd'⟩
    · obtain ⟨rfl, rfl⟩ : d = c ∧ post = calls := by simpa using hd'
      obtain ⟨e, post', rfl, hes⟩ := h.first hc
      exact ⟨e, post', rfl, by simpa using h.places [] e post' rfl, hes.trans hsize⟩
    · exact h.again pre d post hd' hd
  last pre d post he hd hnot := by
    rcases List.cons_eq_append_iff.mp he with ⟨rfl, hd'⟩ | ⟨pre, rfl, hd'⟩
    · obtain ⟨rfl, -⟩ : d = c ∧ post = calls := by simpa using hd'
      exact absurd hretried hnot
    · exact h.last pre d post hd' hd hnot
  budget := by
    have hv : v.credit = 0 := by simp [World.credit, hsize, MIN_NET_BUFFER_SIZE, MAX_NET_BUFFER_SIZE]
    have hfull : w.credit = 1 := by rw [World.credit, if_pos (hcs ▸ hretried.2)]
    have hrest := h.budget
    simp only [List.countP_cons, hretried, decide_true, if_true]
    omega
  sized := h.sized
  count := by
    have hv : v.credit = 0 := by simp [World.credit, hsize, MIN_NET_BUFFER_SIZE, MAX_NET_BUFFER_SIZE]
    have hfull : w.credit = 1 := by rw [World.credit, if_pos (hcs ▸ hretried.2)]
    have hcount := h.count
    rw [List.length_cons]
    omega

end ExactTransfer

/-! ## The loop -/

/-- A round over bytes that remain is one call. -/
theorem transferStep_run (s : Int) (f : Int → Str → Os Int) {rest : Str} (hr : rest ≠ [])
    (w : World) : ∃ c : TransferCall, transferCall s f (rest, w) = some c ∧ c.rest = rest ∧
      c.size = w.netBufferSize ∧ c.result = (f s c.chunk w).1 ∧
      transferStep s f rest w =
        if 0 < c.result then (.inl (rest.drop c.result.toNat), (f s c.chunk w).2)
        else if c.Retried then (.inl rest, (shrinkBuffer (f s c.chunk w).2).2)
        else (.inr (if c.result < 0 then c.result else -ENODATA), (f s c.chunk w).2) := by
  refine ⟨_, if_neg hr, rfl, rfl, rfl, ?_⟩
  simp +instances only [transferStep, if_neg hr, bind_run, gets_run, ite_run, pure_run]
  generalize hcall : f s (rest.take (min rest.length w.netBufferSize)) w = out
  simp only [TransferCall.chunk, Retried, hcall]
  by_cases hpos : 0 < out.1
  · simp [hpos]
  · by_cases hneg : out.1 < 0
    · by_cases hretried : out.1 = -EINVAL ∧ w.netBufferSize = MAX_NET_BUFFER_SIZE
      · simp [hretried, EINVAL]
      · simp [hpos, hneg, hretried]
    · have hnot : ¬ (out.1 = -EINVAL ∧ w.netBufferSize = MAX_NET_BUFFER_SIZE) := fun h => by
        have heq := h.1
        simp only [EINVAL] at heq
        omega
      simp [hpos, hneg, hnot]

section Loop

variable {f : Int → Str → Os Int} (hf : Transferrer f) (s : Int)

include hf

/-- Every round moves a byte or uses the one retry up. -/
theorem transferStep_lt {rest rest' : Str} {w : World}
    (h : (transferStep s f rest w).1 = .inl rest') :
    roundsLeft rest' (transferStep s f rest w).2 < roundsLeft rest w := by
  have hr : rest ≠ [] := by
    rintro rfl
    simp [transferStep] at h
  obtain ⟨c, -, rfl, hsize, hres, hrun⟩ := transferStep_run s f hr w
  have hle := hf.le s c.chunk w
  have hkeep := hf.size s c.chunk w
  have hpos := List.length_pos_of_ne_nil hr
  rw [hrun] at h ⊢
  by_cases h0 : 0 < c.result
  · rw [if_pos h0] at h ⊢
    obtain rfl : c.rest.drop c.result.toNat = rest' := by simpa using h
    simp only [roundsLeft, hkeep, List.length_drop]
    omega
  · rw [if_neg h0] at h ⊢
    by_cases hretried : c.Retried
    · rw [if_pos hretried] at h ⊢
      obtain rfl : c.rest = rest' := by simpa using h
      have hmax : w.netBufferSize = MAX_NET_BUFFER_SIZE := hsize ▸ hretried.2
      have hne : MIN_NET_BUFFER_SIZE ≠ MAX_NET_BUFFER_SIZE := by decide
      simp [roundsLeft, shrinkBuffer, hmax, hne]
    · rw [if_neg hretried] at h
      simp at h

/-- With enough rounds the loop ends by itself. -/
theorem loop_exact (n : Nat) {rest : Str} {w : World} (hw : w.Sized) (hn : roundsLeft rest w < n) :
    ExactTransfer rest w (loopCalls n s f rest w)
        (Prog.iterate n (transferStep s f) (fun _ => 0) rest w).1
        (Prog.iterate n (transferStep s f) (fun _ => 0) rest w).2 ∧
      Made s f w (loopCalls n s f rest w)
        (Prog.iterate n (transferStep s f) (fun _ => 0) rest w).2 := by
  induction n generalizing rest w with
  | zero => omega
  | succ n ih =>
    by_cases hr : rest = []
    · subst hr
      have hdone : transferStep s f [] w = (.inr 0, w) := by simp [transferStep]
      have hinr : (transferStep s f [] w).1 = .inr 0 := by rw [hdone]
      rw [iterate_inr hinr, loopCalls, rounds_inr hinr, hdone]
      exact ⟨.nil hw, .nil⟩
    · obtain ⟨c, hcall, rfl, hsize, hres, hrun⟩ := transferStep_run s f hr w
      have hle : c.result ≤ c.chunk.length := hres ▸ hf.le s c.chunk w
      have hkeep := hf.size s c.chunk w
      by_cases h0 : 0 < c.result
      · rw [if_pos h0] at hrun
        have hinl : (transferStep s f c.rest w).1 = .inl (c.rest.drop c.result.toNat) := by
          rw [hrun]
        have hlt := transferStep_lt hf s hinl
        rw [iterate_inl hinl, loopCalls, rounds_inl hinl, List.filterMap_cons, hcall]
        rw [hrun] at hlt ⊢
        have hfuel := Nat.lt_of_lt_of_le hlt (Nat.le_of_lt_succ hn)
        have hsized : World.Sized (f s c.chunk w).2 := by simpa only [World.Sized, hkeep] using hw
        have hmake : c.make s f w = (f s c.chunk w).2 := if_neg fun h => h0.not_gt h.neg
        obtain ⟨hexact, hmade⟩ := ih hsized hfuel
        exact ⟨hexact.accept hw hkeep hr hsize h0 hle, .cons hsize hres (hmake ▸ hmade)⟩
      · rw [if_neg h0] at hrun
        by_cases hretried : c.Retried
        · rw [if_pos hretried] at hrun
          have hinl : (transferStep s f c.rest w).1 = .inl c.rest := by rw [hrun]
          have hlt := transferStep_lt hf s hinl
          rw [iterate_inl hinl, loopCalls, rounds_inl hinl, List.filterMap_cons, hcall]
          rw [hrun] at hlt ⊢
          have hfuel := Nat.lt_of_lt_of_le hlt (Nat.le_of_lt_succ hn)
          have hmake : c.make s f w = (shrinkBuffer (f s c.chunk w).2).2 := if_pos hretried
          obtain ⟨hexact, hmade⟩ := ih (.inr rfl) hfuel
          exact ⟨hexact.retry hw rfl hr hsize hretried, .cons hsize hres (hmake ▸ hmade)⟩
        · rw [if_neg hretried] at hrun
          have hinr : (transferStep s f c.rest w).1 =
              .inr (if c.result < 0 then c.result else -ENODATA) := by rw [hrun]
          have herror : (if c.result < 0 then c.result else -ENODATA) < 0 := by
            split
            · assumption
            · decide
          rw [iterate_inr hinr, loopCalls, rounds_inr hinr, List.filterMap_cons, hcall, hrun]
          have hmake : c.make s f w = (f s c.chunk w).2 := if_neg hretried
          exact ⟨.fail hw hkeep hr hsize (by omega) hretried herror,
            .cons hsize hres (hmake ▸ .nil)⟩

end Loop

/-! ## The life of the program -/

def Shrinks (w w' : World) : Prop :=
  w'.netBufferSize = w.netBufferSize ∨ w'.netBufferSize = MIN_NET_BUFFER_SIZE

theorem shrinks_frame : Frame Shrinks where
  refl _ := .inl rfl
  trans := by
    rintro a b c h (h' | h')
    · rw [Shrinks, h']
      exact h
    · exact .inr h'

theorem Shrinks.sized {w w' : World} (h : Shrinks w w') (hw : w.Sized) : w'.Sized := by
  rcases h with h | h
  · rw [World.Sized, h]
    exact hw
  · exact .inr h

theorem Shrinks.credit {w w' : World} (h : Shrinks w w') : w'.credit ≤ w.credit := by
  rcases h with h | h
  · simp only [World.credit, h, le_refl]
  · have hne : MIN_NET_BUFFER_SIZE ≠ MAX_NET_BUFFER_SIZE := by decide
    simp [World.credit, h, hne]

theorem shrinks_use : WorldUse Shrinks where
  sockets :=
    { toFrame := shrinks_frame
      answers := fun _ _ _ => .inl rfl
      shrink := fun _ => .inr rfl
      flags := fun _ _ _ _ _ _ => .inl rfl
      write := fun _ _ _ _ _ _ _ _ => .inl rfl
      opened := fun _ _ _ => .inl rfl
      bound := fun _ _ _ _ _ => .inl rfl
      listening := fun _ _ _ _ => .inl rfl
      closed := fun _ _ => .inl rfl
      waits := fun _ _ _ => .inl rfl
      connects := fun _ _ _ => .inl rfl
      received := fun _ _ _ _ _ => .inl rfl }
  streams :=
    { toFrame := shrinks_frame
      answers := fun _ _ _ => .inl rfl
      errno := fun _ _ => .inl rfl
      disk := fun _ _ => .inl rfl
      renamed := fun _ _ _ => .inl rfl
      opened := fun _ _ => .inl rfl
      stream := fun _ _ _ _ _ _ => .inl rfl
      close := fun _ _ _ _ => .inl rfl }
  devices := UsesDevices.mounts
    { toFrame := shrinks_frame, answers := fun _ _ _ => .inl rfl, devices := fun _ _ => .inl rfl }
  emit _ _ _ := .inl rfl
  statics _ _ _ _ _ := .inl rfl

theorem Idle.shrinks {w w' : World} (h : Idle w w') : Shrinks w w' := by
  obtain ⟨a, e, d, r, l, rfl, -⟩ := h
  exact .inl rfl

theorem run_shrinks {s : Server} (h : WellFormed s) (ls : List Label) :
    Shrinks s.world (ls.foldl Server.step s).world :=
  shrinks_use.run Idle.shrinks (fun _ => .inl rfl) h ls

theorem Server.Initial.sized {s : Server} (h : s.Initial) : s.world.Sized := by
  obtain ⟨disk, mounted, strerror, password, rfl⟩ := h.eq
  exact .inl rfl

/-- Transfers one after the other, with what else the program does between them; the calls are
those of all of them. -/
inductive Life : World → List TransferCall → World → Prop where
  | start (w : World) : Life w [] w
  | transfer {w v : World} {calls : List TransferCall} {f : Int → Str → Os Int} (s : Int)
      (buf : Str) : Life w calls v → Transferrer f →
        Life w (calls ++ transferCalls s buf f v) (transferExact s buf f v).2
  | other {w v v' : World} {calls : List TransferCall} : Life w calls v → Shrinks v v' →
      Life w calls v'

theorem Toggles.size {fd : Int} {w w' : World} (h : Toggles fd w w') :
    w'.netBufferSize = w.netBufferSize := by
  obtain ⟨cs, rfl | ⟨k, f, -, rfl⟩⟩ := h <;> rfl

theorem ExactTransfer.congr {buf : Str} {u v w w' : World} {calls : List TransferCall} {r : Int}
    (h : ExactTransfer buf u calls r v) (hw : u.netBufferSize = w.netBufferSize)
    (hw' : w'.netBufferSize = v.netBufferSize) : ExactTransfer buf w calls r w' :=
  { h with
    first := by simpa only [hw] using h.first
    budget := by simpa only [World.credit, hw, hw'] using h.budget
    sized := by simpa only [World.Sized, hw'] using h.sized
    count := by simpa only [World.credit, hw] using h.count }

/-- Between two changes of the socket's mode transfer_exact does nothing but make these calls. -/
def Carried (s : Int) (f : Int → Str → Os Int) (w : World) (calls : List TransferCall)
    (w' : World) : Prop :=
  ∃ v, Made s f (setBlocking s true w).2 calls v ∧ w' = (setBlocking s false v).2

theorem transferExact_run {f : Int → Str → Os Int} (hf : Transferrer f) (s : Int) (buf : Str)
    {w : World} (hw : w.Sized) :
    ExactTransfer buf w (transferCalls s buf f w) (transferExact s buf f w).1
        (transferExact s buf f w).2 ∧
      Carried s f w (transferCalls s buf f w) (transferExact s buf f w).2 := by
  let u := (setBlocking s true w).2
  have hu : u.netBufferSize = w.netBufferSize := (setBlocking_toggles s true w).size
  have hsized : u.Sized := by simpa only [World.Sized, hu] using hw
  have hfuel : roundsLeft buf u < buf.length + 2 := by
    simp only [roundsLeft]
    split <;> omega
  obtain ⟨hloop, hmade⟩ := loop_exact hf s (buf.length + 2) hsized hfuel
  exact ⟨hloop.congr hu (setBlocking_toggles s false _).size, _, hmade, rfl⟩

theorem Life.sound {w w' : World} {calls : List TransferCall} (h : Life w calls w')
    (hw : w.Sized) :
    w'.Sized ∧ calls.countP (fun c => decide c.Retried) + w'.credit ≤ w.credit := by
  induction h with
  | start => exact ⟨hw, by simp⟩
  | @transfer v calls f s buf _ hf ih =>
    obtain ⟨hv, hbudget⟩ := ih
    have hexact := (transferExact_run hf s buf hv).1
    have hrest := hexact.budget
    refine ⟨hexact.sized, ?_⟩
    rw [List.countP_append]
    omega
  | other _ hs ih =>
    obtain ⟨hv, hbudget⟩ := ih
    have hcredit := hs.credit
    exact ⟨hs.sized hv, by omega⟩

theorem transferrer_netWrite : Transferrer netWrite where
  le fd chunk w := by
    cases hk : w.socks fd with
    | none => simp [netWrite, hk, EBADF]
    | some k => exact (netWrite_sent hk chunk).2.1
  size fd chunk w := by
    cases hk : w.socks fd with
    | none => simp [netWrite, hk]
    | some k => exact (netWrite_sent hk chunk).2.2.1

theorem Made.sent {fd : Int} {calls : List TransferCall} {k : Sock} {u v : World}
    (h : Made fd netWrite u calls v) (hk : u.socks fd = some k) :
    Sent fd k (calls.flatMap accepted) u v := by
  induction calls generalizing k u with
  | nil =>
    obtain rfl : v = u := h.world
    exact .none hk
  | cons c calls ih =>
    have hwrite := (netWrite_sent hk c.chunk).1
    have hcall : Sent fd k c.accepted u (c.make fd netWrite u) := by
      rw [accepted, h.head, make]
      split
      · exact ⟨hwrite.sent, hwrite.object⟩
      · exact hwrite
    obtain ⟨k', hk', hid⟩ := hcall.object
    exact hcall.append hid (ih h.tail hk')

/-- What send_exact hands to net_write is what goes out on the socket. -/
theorem Carried.sent {fd : Int} {calls : List TransferCall} {k : Sock} {w w' : World}
    (h : Carried fd netWrite w calls w') (hk : w.socks fd = some k) :
    Sent fd k (calls.flatMap accepted) w w' := by
  obtain ⟨v, hmade, rfl⟩ := h
  have hon := (setBlocking_toggles fd true w).sent hk
  obtain ⟨k', hk', hid⟩ := hon.object
  have hcalls := hon.append hid (hmade.sent hk')
  obtain ⟨l, hl, hid'⟩ := hcalls.object
  simpa using hcalls.append hid' ((setBlocking_toggles fd false v).sent hl)

/-- transfer_exact makes these calls and nothing else between two changes of the socket's mode. It
asks for 1 to NET_BUFFER_SIZE bytes behind those it has handed over, returns 0 exactly when all are,
and ends by itself. A call that failed with -EINVAL is repeated once at most in the life of the
program, and NET_BUFFER_SIZE never grows. What send_exact handed over is what went out. -/
theorem transfer_exact :
    (∀ f : Int → Str → Os Int, Transferrer f → ∀ s buf (w : World), w.Sized →
      ExactTransfer buf w (transferCalls s buf f w) (transferExact s buf f w).1
          (transferExact s buf f w).2 ∧
        Carried s f w (transferCalls s buf f w) (transferExact s buf f w).2 ∧
        Shrinks w (transferExact s buf f w).2 ∧
        ∀ n, buf.length + 2 ≤ n →
          Prog.iterate n (transferStep s f) (fun _ => 0) buf (setBlocking s true w).2 =
            Prog.iterate (buf.length + 2) (transferStep s f) (fun _ => 0) buf
              (setBlocking s true w).2) ∧
    (∀ fd buf (w : World) k, w.Sized → w.socks fd = some k →
      Sent fd k ((transferCalls fd buf netWrite w).flatMap accepted) w (sendExact fd buf w).2) ∧
    (∀ (w w' : World) calls, w.Sized → Life w calls w' →
      calls.countP (fun c => decide c.Retried) ≤ 1) ∧
    ∀ guard s, Reachable guard s → s.world.Sized ∧
      ∀ ls : List Label, Shrinks s.world (ls.foldl Server.step s).world := by
  refine ⟨fun f hf s buf w hw => ?_, fun fd buf w k hw hk =>
    (transferExact_run transferrer_netWrite fd buf hw).2.sent hk, fun w w' calls hw hl => ?_,
    fun guard s hs => ⟨?_, run_shrinks hs.wellFormed⟩⟩
  · obtain ⟨hexact, hcarried⟩ := transferExact_run hf s buf hw
    have hshrinks : Shrinks w (transferExact s buf f w).2 := by
      have hbudget := hexact.budget
      rcases hexact.sized with h | h
      · rcases hw with h' | h'
        · exact .inl (h.trans h'.symm)
        · have hne : MIN_NET_BUFFER_SIZE ≠ MAX_NET_BUFFER_SIZE := by decide
          simp [World.credit, h, h', hne] at hbudget
      · exact .inr h
    refine ⟨hexact, hcarried, hshrinks, fun n hn => ?_⟩
    have hfuel : roundsLeft buf (setBlocking s true w).2 < buf.length + 2 := by
      simp only [roundsLeft]
      split <;> omega
    exact iterate_fuel roundsLeft (fun _ _ _ h => transferStep_lt hf s h) n (buf.length + 2)
      (by omega) hfuel
  · have hcredit : w.credit ≤ 1 := by
      rw [World.credit]
      split <;> omega
    have hbudget := (hl.sound hw).2
    omega
  · exact Reach.invariant_of (I := fun s => s.world.Sized) (fun s hi => hi.sized)
      (fun s l hr hsized _ => (run_shrinks (Reachable.wellFormed hr) [l]).sized hsized) hs

/-- One retry, and the rest in two calls; the socket gets the bytes once. -/
theorem transfer_exact_retry :
    let w := { World.boot (fun _ => none) (fun _ => true) (fun _ => []) with
      socks := fun s => if s = 3 then some { id := 0 } else none
      answers := { writes := [-EINVAL, 3] } }
    transferCalls 3 "abcde".toList netWrite w =
        [⟨"abcde".toList, 32768, -22⟩, ⟨"abcde".toList, 4096, 3⟩, ⟨"de".toList, 4096, 2⟩] ∧
      (transferCalls 3 "abcde".toList netWrite w).flatMap TransferCall.accepted = "abcde".toList ∧
      (transferExact 3 "abcde".toList netWrite w).1 = 0 ∧
      (sendExact 3 "abcde".toList w).2.sent 0 = "abcde".toList := by
  intro w
  have hexact := (transfer_exact.1 netWrite transferrer_netWrite 3 "abcde".toList w (.inl rfl)).1
  have hsent := transfer_exact.2.1 3 "abcde".toList w { id := 0 } (.inl rfl) rfl
  have hcalls : transferCalls 3 "abcde".toList netWrite w =
      [⟨"abcde".toList, 32768, -22⟩, ⟨"abcde".toList, 4096, 3⟩, ⟨"de".toList, 4096, 2⟩] := by
    decide +kernel
  have hall : (transferCalls 3 "abcde".toList netWrite w).flatMap TransferCall.accepted =
      "abcde".toList := by
    rw [hcalls]
    decide
  rw [hall] at hsent
  refine ⟨hcalls, hall, hexact.zero.mpr hall, ?_⟩
  rw [hsent.sent, Function.update_self]
  rfl

end Ftpii
