import Ftpii.ControlStream
set_option autoImplicit false

/-! Who is in the client table: from the greeting of a client to its cleanup. -/

namespace Ftpii
open StateProgram Prog

/-! ## Staying -/

/-- The step cleans up client p in slot i: its own turn ends it, or the server shuts down. -/
def Server.CleansUp (s : Server) (i : Fin MAX_CLIENTS) (p : Nat) : Label → Prop
  | .slot j => j = i ∧ ∀ c ∈ s.heap p, (turn c ⟨c, s.world⟩).1 = true
  | .shutdown => True
  | _ => False

theorem acceptEvents_stays {s : Server} (h : WellFormed s) {i : Fin MAX_CLIENTS} {p : Nat}
    (hi : s.clients i = some p) : (acceptEvents s).2.clients i = some p := by
  have hstep : ∀ t, WellFormed t ∧ t.clients i = some p → WellFormed (acceptStep s.server t).2 ∧
      (acceptStep s.server t).2.clients i = some p := by
    rintro t ⟨hw, ht⟩
    refine ⟨(survives_true.acceptStep hw trivial s.server).1, ?_⟩
    rcases acceptStep_cases hw s.server with
      ⟨-, he⟩ | ⟨peer, address, w, w', -, -, -, -, he | ⟨-, he⟩ | ⟨j, hj, he⟩⟩
    · simp [he, ht]
    · simp [he, ht]
    · simp [he, ht]
    · have hij : i ≠ j := by
        rintro rfl
        simp [ht] at hj
      simp [he, Server.entering, hij, ht]
  have hloop : WellFormed (processAcceptEvents s.server s).2 ∧
      (processAcceptEvents s.server s).2.clients i = some p :=
    iterate_rule (I := fun _ t => WellFormed t ∧ t.clients i = some p)
      (Q := fun _ t => WellFormed t ∧ t.clients i = some p) (fun _ t _ ht _ => hstep t ht)
      (fun _ t _ ht _ => hstep t ht) (fun _ _ ht => ht) (netFuel s.world).1 (b := ()) ⟨h, hi⟩
  exact hloop.2

theorem step_stays {s : Server} (h : WellFormed s) {i : Fin MAX_CLIENTS} {p : Nat}
    (hi : s.clients i = some p) (l : Label) :
    (s.step l).clients i = some p ∨ s.CleansUp i p l := by
  unfold Server.step
  split
  · exact .inl hi
  cases l with
  | env _ | dvdMount | wiimote | gamecube | timers => exact .inl hi
  | reinit =>
    obtain ⟨w, server, down, halted, -, he⟩ := reinitialise_cases s
    simp only [Label.run, he]
    exact .inl hi
  | accept => exact .inl (acceptEvents_stays h hi)
  | slot j =>
    rcases processSlot_cases h j with ⟨-, he⟩ | ⟨q, c, hj, hq, ⟨-, he⟩ | ⟨hr, he⟩⟩
    · simp only [Label.run, he]
      exact .inl hi
    · simp only [Label.run, he]
      exact .inl hi
    · by_cases hji : j = i
      · subst hji
        obtain rfl : p = q := by simpa [hi] using hj
        exact .inr ⟨rfl, fun d hd => by simpa [Option.mem_unique hd hq] using hr⟩
      · refine .inl ?_
        simp only [Label.run, he]
        simpa [Server.without, Server.withSession, Ne.symm hji] using hi
  | shutdown => exact .inr trivial

/-- A client keeps its slot until a step cleans it up. -/
theorem run_stays {s : Server} (h : WellFormed s) {i : Fin MAX_CLIENTS} {p : Nat}
    (hi : s.clients i = some p) (ls : List Label) :
    (ls.foldl Server.step s).clients i = some p ∨
      ∃ pre l post, ls = pre ++ l :: post ∧ (pre.foldl Server.step s).clients i = some p ∧
        (pre.foldl Server.step s).CleansUp i p l := by
  induction ls generalizing s with
  | nil => exact .inl hi
  | cons l ls ih =>
    rcases step_stays h hi l with hstay | hend
    · have hw := (survives_true.step h trivial l fun _ _ _ _ _ _ => trivial).1
      rcases ih hw hstay with hstay' | ⟨pre, l', post, rfl, hpre, hend⟩
      · exact .inl hstay'
      · exact .inr ⟨l :: pre, l', post, rfl, hpre, hend⟩
    · exact .inr ⟨[], l, ls, rfl, hi, hend⟩

/-! ## Entering -/

/-- Clients were only added, and whom a greeting was written to is in the table. -/
structure Admits (s t : Server) : Prop where
  heap : ∀ p c, s.heap p = some c → t.heap p = some c
  greetings : ∀ k, ∀ e ∈ t.world.hist k, e ∈ s.world.hist k ∨
    (∃ p c, t.heap p = some c ∧ c.conn = k) ∨ ∃ r < 0, e = .reply 220 "ftpii".toList r

theorem admits_frame : Frame Admits where
  refl _ := ⟨fun _ _ h => h, fun _ _ h => .inl h⟩
  trans h h' := by
    refine ⟨fun p c hp => h'.heap p c (h.heap p c hp), fun k e he => ?_⟩
    rcases h'.greetings k e he with hb | hin
    · rcases h.greetings k e hb with ha | ⟨p, c, hp, hc⟩ | hr
      · exact .inl ha
      · exact .inr (.inl ⟨p, c, h'.heap p c hp, hc⟩)
      · exact .inr (.inr hr)
    · exact .inr hin

theorem Grows.admits {s t : Server} (h : Grows s.world t.world) (hh : t.heap = s.heap) :
    Admits s t := by
  refine ⟨fun p c hp => hh ▸ hp, fun k e he => .inl ?_⟩
  rwa [h.hist] at he

theorem acceptStep_admits {s : Server} (h : WellFormed s) (server : Int) :
    Admits s (acceptStep server s).2 := by
  rcases acceptStep_cases h server with
    ⟨hi, he⟩ | ⟨peer, address, w, w', -, -, hi, hi', he | ⟨hneg, he⟩ | ⟨i, -, he⟩⟩
  · rw [he]
    exact Grows.admits hi.grows rfl
  · have hopen : Grows w (w.openedSock peer) := ⟨Nat.le_succ _, rfl⟩
    rw [he]
    exact Grows.admits (grows_frame.trans hi.grows <| grows_frame.trans hopen <|
      grows_frame.trans hi'.grows <| netClose_keeps grows_sockets peer w') rfl
  · obtain ⟨hconn, hist, hstory⟩ := greeted_hist h hi hi' address
    have hclose : Grows (greeted w' peer address).world (ungreeted w' peer address) :=
      netCloseBlocking_keeps grows_sockets peer _
    rw [he]
    refine ⟨fun p c hp => hp, fun k e hk => ?_⟩
    simp only [hclose.hist] at hk
    by_cases hks : k = s.world.nextSock
    · rw [hks, ← hconn] at hk
      rw [Session.story] at hstory
      rw [hstory, List.mem_singleton] at hk
      exact .inr (.inr ⟨_, hneg, hk⟩)
    · exact .inl (hist k hks ▸ hk)
  · obtain ⟨hconn, hist, -⟩ := greeted_hist h hi hi' address
    rw [he]
    refine ⟨fun p c hp => ?_, fun k e hk => ?_⟩
    · have hne : p ≠ s.nextClient := by
        rintro rfl
        simp [h.fresh s.nextClient le_rfl] at hp
      simpa [Server.entering, hne] using hp
    · by_cases hks : k = s.world.nextSock
      · exact .inr (.inl ⟨s.nextClient, (greeted w' peer address).client,
          by simp [Server.entering], hconn.trans hks.symm⟩)
      · exact .inl (hist k hks ▸ hk)

theorem acceptEvents_admits {s : Server} (h : WellFormed s) : Admits s (acceptEvents s).2 := by
  have hloop : WellFormed (processAcceptEvents s.server s).2 ∧
      Admits s (processAcceptEvents s.server s).2 :=
    iterate_rule (I := fun _ t => WellFormed t ∧ Admits s t)
      (Q := fun _ t => WellFormed t ∧ Admits s t)
      (fun _ _ _ ht _ => ⟨(survives_true.acceptStep ht.1 trivial _).1,
        admits_frame.trans ht.2 (acceptStep_admits ht.1 _)⟩)
      (fun _ _ _ ht _ => ⟨(survives_true.acceptStep ht.1 trivial _).1,
        admits_frame.trans ht.2 (acceptStep_admits ht.1 _)⟩)
      (fun _ _ ht => ht) (netFuel s.world).1 (b := ()) ⟨h, admits_frame.refl s⟩
  exact ⟨hloop.2.heap, hloop.2.greetings⟩

/-! ## Leaving -/

def Server.Freed (p : Nat) (s : Server) : Prop := p < s.nextClient ∧ s.heap p = none

theorem survives_freed (p : Nat) : Survives (Server.Freed p) where
  idle _ _ _ _ hs _ := hs
  away _ hs _ _ _ _ := hs
  ungreeted _ _ hs _ _ _ _ := ⟨Nat.lt_succ_of_lt hs.1, hs.2⟩
  enter _ _ hs _ _ _ _ _ :=
    ⟨Nat.lt_succ_of_lt hs.1, by simpa [Server.entering, hs.1.ne] using hs.2⟩
  stay {s q c} _ hs hq _ := by
    have hne : p ≠ q := by
      rintro rfl
      simp [hs.2] at hq
    exact ⟨hs.1, by simpa [Server.withSession, hne] using hs.2⟩
  leave {s i q c m} _ hs _ hq _ := by
    have hne : p ≠ q := by
      rintro rfl
      simp [hs.2] at hq
    exact ⟨hs.1, by simpa [Server.without, Server.withSession, hne] using hs.2⟩
  finish _ hs _ := hs

/-- The table in every run: it is counted, no client is in it twice, whoever was greeted is in it
until its cleanup, and a freed client never is nor is ever used. -/
theorem client_table_sound {guard : Server → Label → Prop} {s : Server}
    (h : Reachable guard s) :
    (s.numClients.toNat = s.slots.card ∧ s.slots.card ≤ MAX_CLIENTS) ∧
      (∀ i j p, s.clients i = some p → s.clients j = some p → i = j) ∧
      (∀ k r, 0 ≤ r → .reply 220 "ftpii".toList r ∈ (s.step .accept).world.hist k →
        .reply 220 "ftpii".toList r ∉ s.world.hist k →
        ∃ i p c, (s.step .accept).clients i = some p ∧ (s.step .accept).heap p = some c ∧
          c.conn = k) ∧
      (∀ i p, s.clients i = some p → ∀ ls : List Label,
        (ls.foldl Server.step s).clients i = some p ∨
          ∃ pre l post, ls = pre ++ l :: post ∧ (pre.foldl Server.step s).clients i = some p ∧
            (pre.foldl Server.step s).CleansUp i p l) ∧
      s.fault = false ∧
      ∀ p, s.Freed p → ∀ ls : List Label, (ls.foldl Server.step s).heap p = none ∧
        ∀ i, (ls.foldl Server.step s).clients i ≠ some p := by
  have hw := h.wellFormed
  refine ⟨⟨hw.counted, Finset.card_le_univ _⟩, hw.distinct, ?_, fun i p hi => run_stays hw hi,
    hw.no_fault, fun p hp ls => ?_⟩
  · intro k r hr hnew hold
    by_cases hh : s.halted = true
    · simp only [Server.step, hh, if_true] at hnew
      exact absurd hnew hold
    · have hstep : s.step .accept = (acceptEvents s).2 := by simp [Server.step, hh, Label.run]
      rw [hstep] at hnew ⊢
      have hw' := (survives_true.acceptEvents hw trivial).1
      rcases (acceptEvents_admits hw).greetings k _ hnew with hs | ⟨p, c, hp, hc⟩ | ⟨r', hneg, he⟩
      · exact absurd hs hold
      · obtain ⟨i, hi⟩ := hw'.placed p (by simp [hp])
        exact ⟨i, p, c, hi, hp, hc⟩
      · obtain rfl : r = r' := by simpa using he
        omega
  · obtain ⟨hw', hfreed⟩ := (survives_freed p).run (fun _ hs _ _ _ _ _ => hs) hw hp ls
    refine ⟨hfreed.2, fun i hi => ?_⟩
    have hlive := hw'.live i p hi
    simp [hfreed.2] at hlive

/-- A client left and another took its slot: the first is gone for good, the second stays until it is
cleaned up. -/
theorem client_table_sound_returning :
    let s := Server.after returningRun
    s.numClients.toNat = 1 ∧ s.slots.card = 1 ∧ s.fault = false ∧
      (∀ ls : List Label, (ls.foldl Server.step s).heap 0 = none ∧
        ∀ i, (ls.foldl Server.step s).clients i ≠ some 0) ∧
      ∀ ls : List Label, (ls.foldl Server.step s).clients ⟨0, by decide⟩ = some 1 ∨
        ∃ pre l post, ls = pre ++ l :: post ∧
          (pre.foldl Server.step s).clients ⟨0, by decide⟩ = some 1 ∧
          (pre.foldl Server.step s).CleansUp ⟨0, by decide⟩ 1 l := by
  intro s
  obtain ⟨hcount, hslot, hgone, hnext⟩ : s.numClients.toNat = 1 ∧
      s.clients ⟨0, by decide⟩ = some 1 ∧ s.heap 0 = none ∧ 0 < s.nextClient := by decide +kernel
  obtain ⟨⟨hcard, -⟩, -, -, hstay, hfault, hfreed⟩ :=
    client_table_sound (after_reachable returningRun)
  exact ⟨hcount, hcard.symm.trans hcount, hfault, hfreed 0 ⟨hnext, hgone⟩,
    hstay ⟨0, by decide⟩ 1 hslot⟩

end Ftpii
