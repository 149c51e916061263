import Ftpii.ControlStream
import Ftpii.DeviceMonitor
import Ftpii.Histories
import Ftpii.OpenFiles
import Ftpii.OpenSockets
set_option autoImplicit false

/-!
main as a whole: rounds of its loop until a reset is asked for, then the end, at which every client is
told and nothing is left open.
-/

namespace Ftpii
open StateProgram Prog Ownership

/-! ## Clients at the end -/

def dismissal : Str := "Service not available, closing control connection.".toList

def Server.Gone (s : Server) (p k : Nat) : Prop :=
  s.heap p = none ∧ ∀ q d, s.heap q = some d → d.conn ≠ k

/-- A client is as it was, or it was told and is gone. -/
def Server.Dismisses (s s' : Server) (p : Nat) (c : Client) : Prop :=
  (s'.heap p = some c ∧ s'.world.hist c.conn = s.world.hist c.conn) ∨
    (s'.Gone p c.conn ∧
      ∃ r, s'.world.hist c.conn = s.world.hist c.conn ++ [.reply 421 dismissal r])

section Dismiss

variable {s : Server}

theorem dismiss_story (t : Session) :
    (dismiss t).2.story = t.story ++ [.reply 421 dismissal (dismiss t).1] :=
  writeReply_story 421 dismissal t

theorem cleanupSlot_wellFormed (h : WellFormed s) (i : Fin MAX_CLIENTS) :
    WellFormed (cleanupSlot i s).2 := (survives_true.cleanupSlot h trivial i).1

theorem cleanupSlot_dismisses (h : WellFormed s) (i : Fin MAX_CLIENTS) {p : Nat} {c : Client}
    (hp : s.heap p = some c) : s.Dismisses (cleanupSlot i s).2 p c := by
  rcases cleanupSlot_cases h i with ⟨-, he⟩ | ⟨q, d, hi, hq, he⟩
  · rw [he]
    exact .inl ⟨hp, rfl⟩
  have hapart := dismiss_apart ⟨d, s.world⟩
  have hstory := dismiss_story ⟨d, s.world⟩
  have hgone := (closeSockets_grows (dismiss ⟨d, s.world⟩).2).hist
  rw [he]
  by_cases hpq : p = q
  · subst hpq
    obtain rfl := Option.some.inj (hp.symm.trans hq)
    refine .inr ⟨⟨by simp [Server.without], fun q d hqd => ?_⟩, (dismiss ⟨c, s.world⟩).1, ?_⟩
    · by_cases hqp : q = p
      · simp [Server.without, hqp] at hqd
      · have hold : s.heap q = some d := by
          simpa [Server.without, Server.withSession, hqp] using hqd
        exact fun hcd => hqp (h.conns q p d c hold hp hcd)
    · change (closeSockets (dismiss ⟨c, s.world⟩).2).2.world.hist c.conn = _
      rw [hgone]
      simpa [Session.story, hapart.conn] using hstory
  · have hconn : c.conn ≠ d.conn := fun hcd => hpq (h.conns p q c d hp hq hcd)
    refine .inl ⟨by simp [Server.without, Server.withSession, hpq, hp], ?_⟩
    change (closeSockets (dismiss ⟨d, s.world⟩).2).2.world.hist c.conn = _
    rw [hgone]
    exact hapart.hist c.conn hconn

theorem cleanupSlot_gone (h : WellFormed s) (i : Fin MAX_CLIENTS) {p k : Nat} (hgone : s.Gone p k) :
    (cleanupSlot i s).2.Gone p k ∧ (cleanupSlot i s).2.world.hist k = s.world.hist k := by
  obtain ⟨hp, hk⟩ := hgone
  rcases cleanupSlot_cases h i with ⟨-, he⟩ | ⟨q, d, hi, hq, he⟩
  · rw [he]
    exact ⟨⟨hp, hk⟩, rfl⟩
  have hpq : p ≠ q := by
    rintro rfl
    rw [hp] at hq
    contradiction
  have hapart := dismiss_apart ⟨d, s.world⟩
  have hclosed := (closeSockets_grows (dismiss ⟨d, s.world⟩).2).hist
  rw [he]
  refine ⟨⟨by simp [Server.without, Server.withSession, hpq, hp], fun q' d' hq' => ?_⟩, ?_⟩
  · by_cases hqq : q' = q
    · simp [Server.without, hqq] at hq'
    · have hold : s.heap q' = some d' := by
        simpa [Server.without, Server.withSession, hqq] using hq'
      exact hk q' d' hold
  · change (closeSockets (dismiss ⟨d, s.world⟩).2).2.world.hist k = _
    rw [hclosed]
    exact hapart.hist k (hk q d hq).symm

theorem cleanupSlots_gone (h : WellFormed s) (is : List (Fin MAX_CLIENTS)) {p k : Nat}
    (hgone : s.Gone p k) : (Prog.forEach is cleanupSlot s).2.Gone p k ∧
      (Prog.forEach is cleanupSlot s).2.world.hist k = s.world.hist k := by
  induction is generalizing s with
  | nil => exact ⟨hgone, rfl⟩
  | cons i is ih =>
    obtain ⟨hone, hhist⟩ := cleanupSlot_gone h i hgone
    obtain ⟨hall, hhist'⟩ := ih (cleanupSlot_wellFormed h i) hone
    exact ⟨hall, hhist'.trans hhist⟩

theorem cleanupSlots_dismisses (h : WellFormed s) (is : List (Fin MAX_CLIENTS)) {p : Nat}
    {c : Client} (hp : s.heap p = some c) : s.Dismisses (Prog.forEach is cleanupSlot s).2 p c := by
  induction is generalizing s with
  | nil => exact .inl ⟨hp, rfl⟩
  | cons i is ih =>
    have hw := cleanupSlot_wellFormed h i
    rcases cleanupSlot_dismisses h i hp with ⟨hstay, hhist⟩ | ⟨hgone, r, hhist⟩
    · have hrest := ih hw hstay
      rw [Server.Dismisses, hhist] at hrest
      exact hrest
    · obtain ⟨hrest, hhist'⟩ := cleanupSlots_gone hw is hgone
      exact .inr ⟨hrest, r, hhist'.trans hhist⟩

end Dismiss

/-! ## Partitions at the end -/

def SameMount (p : Partition) (s s' : Server) : Prop :=
  s'.world.devices.mounted p = s.world.devices.mounted p

theorem sameMount_frame (p : Partition) : Frame (SameMount p) where
  refl _ := rfl
  trans h h' := Eq.trans h' h

theorem unmount_sameMount {p q : Partition} (h : q ≠ p) :
    Keeps (SameMount p) (do
      let _ ← sys (unmount (some q))
      pure ()) := by
  intro s
  have hother := unmountSome_keeps (changesOnly_drives (· = q)) rfl s.world
  exact hother.mounted p fun he => h he.symm

theorem unmount_gone {p : Partition} (hf : p.isFat) (s : Server) :
    (sys (unmount (some p)) s).2.world.devices.mounted p = false := by
  change (unmount (some p) s.world).2.devices.mounted p = false
  by_cases hm : s.world.devices.mounted p = true
  · rw [unmount_fat hf hm]
    exact Function.update_self p false s.world.devices.mounted
  · have hrefused : (unmount (some p) s.world).2 = s.world := by
      simp +instances only [unmount, mounted, dvdMountWait, bind_run, gets_run, pure_run, hm,
        Bool.not_false, Bool.true_or, if_true]
    rw [hrefused]
    simpa using hm

theorem unmounts_gone {p : Partition} (hf : p.isFat) (s : Server) :
    (Prog.forEach VIRTUAL_PARTITIONS (fun q => do
      let _ ← sys (unmount (some q))
      pure ()) s).2.world.devices.mounted p = false := by
  obtain ⟨after, hp, hsplit⟩ := table_split p
  rw [hsplit, forEach_append]
  generalize (Prog.forEach (VIRTUAL_PARTITIONS.takeWhile (· ≠ p)) _ s).2 = t
  have hrest : Keeps (SameMount p) (Prog.forEach after fun q => do
      let _ ← sys (unmount (some q))
      pure ()) := .forEach_mem (sameMount_frame p) after fun q hq =>
    unmount_sameMount fun he => hp (he ▸ hq)
  exact (hrest (sys (unmount (some p)) t).2).trans (unmount_gone hf t)

/-! ## The end -/

/-- What the end of main leaves of s: every client was told once and is gone, the FAT partitions are
unmounted, every file is closed unless a transfer was given up, and every socket unless a client had
outlived the network. -/
structure Server.Ended (s t : Server) : Prop where
  halted : t.halted = true
  clients : ∀ i, t.clients i = none
  heap : ∀ p, t.heap p = none
  counted : t.numClients = 0
  told : ∀ p c, s.heap p = some c →
    ∃ r, t.world.hist c.conn = s.world.hist c.conn ++ [.reply 421 dismissal r]
  unmounted : ∀ p : Partition, p.isFat → t.world.devices.mounted p = false
  streams : ¬ t.world.GivenUp → ∀ f st, t.world.streams f = some st → st.closes = 1
  sockets : Reachable Server.Renews s → ∀ fd, t.world.socks fd = none

section End

variable {s : Server}

theorem shutdown_unmounts {p : Partition} (hf : p.isFat) (s : Server) :
    (shutdown s).2.world.devices.mounted p = false := by
  have htail : ∀ v : Server, (dvdStop (Prog.forEach VIRTUAL_PARTITIONS (fun q => do
      let _ ← sys (unmount (some q))
      pure ()) v).2.world).2.devices.mounted p = false := fun v =>
    ((dvdStop_keeps (changesOnly_drives fun _ => False) _).mounted p id).trans (unmounts_gone hf v)
  simp only [shutdown, bind_run, get_run, sys_run, modify_run]
  exact htail _

theorem shutdown_closes {guard : Server → Label → Prop} (h : Reachable guard s)
    (hheap : ∀ p, s.heap p = none) (hno : ¬ s.world.GivenUp) {f : Nat} {st : Stream}
    (hst : s.world.streams f = some st) : st.closes = 1 := by
  have hfiled : Filed s := Reachable.filed h hno
  have honce := hfiled.once f st hst
  have hopen : st.closes ≠ 0 := by
    intro h0
    obtain ⟨p, c, hp, -⟩ := (hfiled.owned.held f).mp ⟨st, hst, h0⟩
    rw [hheap p] at hp
    contradiction
  omega

theorem numClients_of_empty (h : WellFormed s) (hempty : ∀ i, s.clients i = none) :
    s.numClients = 0 := by
  have hcount := h.counted
  have hcard : s.slots.card = 0 := by simp [Server.slots, hempty]
  rw [hcard] at hcount
  exact UInt8.toNat_inj.mp hcount

/-- At the end of main every client is told and nothing is left open. -/
theorem shutdown_ends (h : Reachable (fun _ _ => True) s) (hh : s.halted = false) :
    s.Ended (s.step .shutdown) := by
  have hw : WellFormed s := Reachable.wellFormed h
  have hrun : s.step .shutdown = (shutdown s).2 := by simp [Server.step, hh, Label.run]
  obtain ⟨w, hidle, he⟩ := shutdown_run s
  have hend : Reachable (fun _ _ => True) (s.step .shutdown) := Reach.step Label.shutdown h trivial
  have hclean := survives_true.cleanupSlots hw trivial (List.finRange MAX_CLIENTS)
    fun j hj => absurd (List.mem_finRange j) hj
  obtain ⟨hwc, -, hslots⟩ := hclean
  have hheap : ∀ p, (cleanupFtp s).2.heap p = none := heap_of_empty hwc hslots
  have hheap' : ∀ p, (s.step .shutdown).heap p = none := by
    rw [hrun, he]
    exact hheap
  have hclients : ∀ i, (s.step .shutdown).clients i = none := by
    rw [hrun, he]
    exact hslots
  refine ⟨by rw [hrun, he], hclients, hheap', ?_, fun p c hp => ?_, fun p hf => ?_,
    fun hno f st hst => shutdown_closes hend hheap' hno hst, fun hr fd => ?_⟩
  · exact numClients_of_empty (Reachable.wellFormed hend) hclients
  · have hhist : (s.step .shutdown).world.hist = (cleanupFtp s).2.world.hist := by
      rw [hrun, he]
      exact hidle.grows.hist
    rcases cleanupSlots_dismisses hw (List.finRange MAX_CLIENTS) hp with ⟨hstay, -⟩ | ⟨-, r, htold⟩
    · have hnone := hheap p
      rw [cleanupFtp, hstay] at hnone
      contradiction
    · exact ⟨r, by rw [hhist]; exact htold⟩
  · rw [hrun]
    exact shutdown_unmounts hf s
  · have hkept := (Reachable.kept hr).shutdown hw hh
    rw [hrun]
    exact hkept.ended (by rw [he]) fd

end End

/-! ## main -/

/-- The loop of main for these outcomes of its rounds, and what follows it. -/
def mainLoop : List Answers → Sys Unit
  | [] => pure ()
  | answers :: rounds => do
    let s ← Prog.get
    if s.halted then pure ()
    else if s.world.resetFlag then shutdown
    else do
      sys (Prog.modify fun w => { w with answers := answers })
      mainIteration
      mainLoop rounds

/-- The network is down, and create_server finds no socket. -/
def Server.Starved (u : Server) (answers : Answers) : Prop :=
  u.networkDown = true ∧ (createServer PORT
    (initialiseNetwork (netClose u.server { u.world with answers := answers }).2).2).1 = none

instance (u : Server) (answers : Answers) : Decidable (u.Starved answers) :=
  inferInstanceAs (Decidable (_ ∧ _))

/-- The round of main with these outcomes is its last and leaves t: a reset was asked for, or the
listener could not be made. -/
def Server.Stops (u : Server) (answers : Answers) (t : Server) : Prop :=
  u.halted = false ∧
    ((u.world.resetFlag = true ∧ t = u.step .shutdown ∧ u.Ended t) ∨
      (u.world.resetFlag = false ∧ u.Starved answers ∧ t = (u.step (.env answers)).step .reinit))

section Main

variable {s : Server}

theorem serving_halted {ls : List Label} (h : Reachable (fun _ _ => True) s)
    (hls : ∀ l ∈ ls, l ≠ .reinit ∧ l ≠ .shutdown) : (ls.foldl Server.step s).halted = s.halted := by
  induction ls generalizing s with
  | nil => rfl
  | cons l ls ih =>
    obtain ⟨hreinit, hshutdown⟩ := hls l (by simp)
    have hone := (step_serving (Reachable.wellFormed h) hreinit hshutdown).2
    have hrest := ih (Reach.step l h trivial) fun l' hl' => hls l' (by simp [hl'])
    exact hrest.trans hone

theorem serveLabels_serve {l : Label} (h : l ∈ serveLabels) : l ≠ .reinit ∧ l ≠ .shutdown := by
  simp only [serveLabels, List.mem_append, List.mem_cons, List.not_mem_nil, or_false,
    List.mem_map] at h
  rcases h with ((rfl | rfl) | ⟨i, -, rfl⟩) | rfl | rfl | rfl <;> simp

/-- A round ends the program only where create_server does, while the network is down. -/
theorem mainIteration_halted (h : Reachable (fun _ _ => True) s) (hh : s.halted = false)
    (hend : (mainIteration s).2.halted = true) :
    s.networkDown = true ∧ (mainIteration s).2 = s.step .reinit := by
  have hrun := mainIteration_run (Reachable.wellFormed h) hh
  cases hd : s.networkDown with
  | false =>
    have hlabels : ∀ l ∈ iterationLabels s, l ≠ .reinit ∧ l ≠ .shutdown := by
      intro l hl
      simp only [iterationLabels, hd, Bool.false_eq_true, if_false, List.nil_append,
        List.foldl_nil, hh, Bool.or_self] at hl
      exact serveLabels_serve hl
    have hsame := serving_halted h hlabels
    rw [← hrun, hend, hh] at hsame
    contradiction
  | true =>
    refine ⟨rfl, ?_⟩
    let t := s.step .reinit
    have hlabels : iterationLabels s =
        .reinit :: if t.halted || t.networkDown then [] else serveLabels := by
      simp [iterationLabels, hd, t]
    cases ht : t.halted with
    | true => simp [hrun, hlabels, ht, t]
    | false =>
      have hserve : ∀ l ∈ (if t.halted || t.networkDown then [] else serveLabels),
          l ≠ .reinit ∧ l ≠ .shutdown := by
        intro l hl
        split at hl
        · simp at hl
        · exact serveLabels_serve hl
      have hsame := serving_halted (Reach.step Label.reinit h trivial) hserve
      rw [hlabels, List.foldl_cons] at hrun
      rw [← hrun, hend, ht] at hsame
      contradiction

theorem mainLoop_halted (hh : s.halted = true) (rounds : List Answers) :
    (mainLoop rounds s).2 = s := by
  cases rounds with
  | nil => rfl
  | cons answers rounds =>
    simp +instances only [mainLoop, bind_run, get_run, ite_run, pure_run, hh, if_true]

theorem mainLoop_reset (hh : s.halted = false) (hreset : s.world.resetFlag = true)
    (answers : Answers) (rounds : List Answers) :
    (mainLoop (answers :: rounds) s).2 = s.step .shutdown := by
  simp [mainLoop, Server.step, Label.run, hh, hreset]

theorem mainLoop_round (hh : s.halted = false) (hreset : ¬ s.world.resetFlag = true)
    (answers : Answers) (rounds : List Answers) :
    (mainLoop (answers :: rounds) s).2 =
      (mainLoop rounds (mainIteration (s.step (.env answers))).2).2 := by
  have henv : s.step (.env answers) = { s with world := { s.world with answers := answers } } := by
    simp [Server.step, Label.run, sys, hh]
  rw [henv]
  simp +instances only [mainLoop, bind_run, get_run, ite_run, hh, hreset, Bool.false_eq_true,
    if_false, sys_run, modify_run]

theorem mainLoop_append (as bs : List Answers) :
    (mainLoop (as ++ bs) s).2 = (mainLoop bs (mainLoop as s).2).2 := by
  induction as generalizing s with
  | nil => rfl
  | cons a as ih =>
    cases hh : s.halted with
    | true => rw [List.cons_append, mainLoop_halted hh, mainLoop_halted hh, mainLoop_halted hh]
    | false =>
      by_cases hreset : s.world.resetFlag = true
      · have hend : (s.step .shutdown).halted = true := by
          obtain ⟨w, -, he⟩ := shutdown_run s
          simp [Server.step, hh, Label.run, he]
        rw [List.cons_append, mainLoop_reset hh hreset, mainLoop_reset hh hreset,
          mainLoop_halted hend]
      · rw [List.cons_append, mainLoop_round hh hreset, mainLoop_round hh hreset]
        exact ih

theorem reinitialise_halted (hh : s.halted = false) (hend : (s.step .reinit).halted = true) :
    (createServer PORT (initialiseNetwork (netClose s.server s.world).2).2).1 = none := by
  have hrun : s.step .reinit = (reinitialise s).2 := by simp [Server.step, hh, Label.run]
  rw [hrun] at hend
  simp only [reinitialise, bind_run, get_run, sys, zoom_run] at hend
  cases hserver : (createServer PORT (initialiseNetwork (netClose s.server s.world).2).2).1 with
  | none => rfl
  | some server =>
    rw [hserver] at hend
    have hsame : s.halted = true := hend
    rw [hh] at hsame
    contradiction

/-- Every state of main is one of the system, and main ends in one of its rounds. -/
theorem mainLoop_ends (h : Reachable (fun _ _ => True) s) (hh : s.halted = false)
    (rounds : List Answers) :
    Reachable (fun _ _ => True) (mainLoop rounds s).2 ∧ ((mainLoop rounds s).2.halted = true →
      ∃ k answers, rounds[k]? = some answers ∧
        (mainLoop (rounds.take k) s).2.Stops answers (mainLoop rounds s).2) := by
  induction rounds generalizing s with
  | nil =>
    refine ⟨h, fun hend => ?_⟩
    have hsame : s.halted = true := hend
    rw [hh] at hsame
    contradiction
  | cons answers rounds ih =>
    by_cases hreset : s.world.resetFlag = true
    · rw [mainLoop_reset hh hreset]
      exact ⟨Reach.step Label.shutdown h trivial,
        fun _ => ⟨0, answers, rfl, hh, .inl ⟨hreset, rfl, shutdown_ends h hh⟩⟩⟩
    let v := s.step (.env answers)
    have hv : Reachable (fun _ _ => True) v := Reach.step (Label.env answers) h trivial
    have henv : v = { s with world := { s.world with answers := answers } } := by
      simp [v, Server.step, Label.run, sys, hh]
    have hvh : v.halted = false := by rw [henv, hh]
    have hround := mainIteration_reachable hv hvh
    rw [mainLoop_round hh hreset]
    cases hend : (mainIteration v).2.halted with
    | false =>
      obtain ⟨hreach, hends⟩ := ih hround hend
      refine ⟨hreach, fun ht => ?_⟩
      obtain ⟨k, answers', hk, hstops⟩ := hends ht
      refine ⟨k + 1, answers', hk, ?_⟩
      rw [List.take_succ_cons, mainLoop_round hh hreset]
      exact hstops
    | true =>
      obtain ⟨hdown, hdied⟩ := mainIteration_halted hv hvh hend
      have hnone := reinitialise_halted hvh (hdied ▸ hend)
      rw [henv] at hdown hnone
      rw [mainLoop_halted hend]
      refine ⟨hround, fun _ => ⟨0, answers, rfl, hh, .inr ⟨Bool.eq_false_iff.mpr hreset, ?_, hdied⟩⟩⟩
      exact ⟨hdown, hnone⟩

end Main

/-- A client logs in and asks for the loader; the next round finds the reset flag set. -/
def loaderRounds : List Answers :=
  [{ net := [{}, { addr := { ip := 1 } }, { code := 3 }, {}, {}, { code := 4 }, { code := -EAGAIN },
      { data := "PASS x\r\nSITE LOADER\r\n".toList }] }, {}]

end Ftpii
