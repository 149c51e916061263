import Ftpii.ClientTable
set_option autoImplicit false

/-!
Runs of the system: what an invariant of the client table has to survive, and the
main loop as a sequence of steps.
-/

namespace Ftpii
open StateProgram Prog

/-! ## Invariants of the system -/

/-- What an invariant of the system has to survive while nothing but the network is looked after. -/
structure Welcomes (I : Server → Prop) : Prop where
  idle : ∀ {s : Server} {w : World} (server : Int) (down halted : Bool), WellFormed s → I s →
    Idle s.world w →
    I { s with world := w, server := server, networkDown := down, halted := halted }
  away : ∀ {s : Server} {w w' : World} {peer : Int}, WellFormed s → I s → 0 ≤ peer →
    s.world.socks peer = none → Idle s.world w → Idle (w.openedSock peer) w' →
    I { s with world := turnedAway w' peer }
  ungreeted : ∀ {s : Server} {w w' : World} {peer : Int} (address : SockAddr), WellFormed s → I s →
    0 ≤ peer → s.world.socks peer = none → Idle s.world w → Idle (w.openedSock peer) w' →
    I { s with nextClient := s.nextClient + 1, world := ungreeted w' peer address }
  enter : ∀ {s : Server} {w w' : World} {peer : Int} {i : Fin MAX_CLIENTS} (address : SockAddr),
    WellFormed s → I s → 0 ≤ peer → s.world.socks peer = none → Idle s.world w →
    Idle (w.openedSock peer) w' → s.clients i = none → I (s.entering i (greeted w' peer address))

/-- What an invariant of the system has to survive while clients come, are served and leave. -/
structure Endures (I : Server → Prop) : Prop extends Welcomes I where
  stay : ∀ {s : Server} {p : Nat} {c : Client}, WellFormed s → I s → s.heap p = some c →
    (turn c ⟨c, s.world⟩).1 = false → I (s.withSession p (turn c ⟨c, s.world⟩).2)
  leave : ∀ {s : Server} {i : Fin MAX_CLIENTS} {p : Nat} {c : Client} {m : Ses Unit},
    WellFormed s → I s → s.clients i = some p → s.heap p = some c →
    (m = turn c *> pure () ∨ m = dismiss *> pure ()) →
    I ((s.withSession p (m ⟨c, s.world⟩).2).without i p (closeSockets (m ⟨c, s.world⟩).2).2.world)

/-- What an invariant of the system has to survive, beside bringing the network up again. -/
structure Survives (I : Server → Prop) : Prop extends Endures I where
  finish : ∀ {s : Server}, WellFormed s → I s → (∀ i, s.clients i = none) →
    I { s with world := (netClose s.server s.world).2 }

section Welcomes

variable {I : Server → Prop} (hI : Welcomes I) {s : Server} (h : WellFormed s) (hs : I s)

include hI h hs

theorem Welcomes.sys {α : Type} {m : Os α} (hm : Keeps Idle m) :
    WellFormed (sys m s).2 ∧ I (sys m s).2 :=
  ⟨h.grow (hm s.world).grows s.server s.networkDown s.halted,
    hI.idle s.server s.networkDown s.halted h hs (hm s.world)⟩

theorem Welcomes.acceptStep (server : Int) :
    WellFormed (acceptStep server s).2 ∧ I (acceptStep server s).2 := by
  rcases acceptStep_cases h server with
    ⟨hidle, he⟩ | ⟨peer, address, w, w', hpos, hclosed, hw, hw', he⟩
  · rw [he]
    exact ⟨h.grow hidle.grows s.server s.networkDown s.halted,
      hI.idle s.server s.networkDown s.halted h hs hidle⟩
  have hopen : Grows s.world w' := by
    have hsock : Grows w (w.openedSock peer) := ⟨Nat.le_succ _, rfl⟩
    exact grows_frame.trans hw.grows (grows_frame.trans hsock hw'.grows)
  have hnext : w'.nextSock = s.world.nextSock + 1 := by
    rw [hw'.nextSock, ← hw.nextSock]
    rfl
  have hconn : (newClient w' peer address).conn = s.world.nextSock := by
    rw [newClient_conn hw', hw.nextSock]
  have hgreet := greeted_apart w' peer address
  have hlt : s.world.nextSock < (greeted w' peer address).world.nextSock := by
    have hn := hgreet.nextSock
    simp only at hn
    omega
  have hist : ∀ k, k ≠ s.world.nextSock →
      (greeted w' peer address).world.hist k = s.world.hist k := fun k hk =>
    (hgreet.hist k (hconn ▸ hk)).trans (congrFun hopen.hist k)
  rcases he with he | ⟨-, he⟩ | ⟨i, hi, he⟩
  · rw [he]
    have hclose : Grows w' (turnedAway w' peer) := netClose_keeps grows_sockets peer w'
    exact ⟨h.grow (grows_frame.trans hopen hclose) s.server s.networkDown s.halted,
      hI.away h hs hpos hclosed hw hw'⟩
  · rw [he]
    have hclose : Grows (greeted w' peer address).world (Ftpii.ungreeted w' peer address) :=
      netCloseBlocking_keeps grows_sockets peer _
    refine ⟨h.skip le_rfl (hlt.trans_le hclose.nextSock) fun k hk => ?_,
      hI.ungreeted address h hs hpos hclosed hw hw'⟩
    exact (congrFun hclose.hist k).trans (hist k hk)
  · rw [he]
    have hkept : (greeted w' peer address).client.conn = s.world.nextSock :=
      hgreet.conn.trans hconn
    exact ⟨h.enter hi hkept.ge (hkept.symm ▸ hlt) fun k hk => hist k (hkept ▸ hk),
      hI.enter address h hs hpos hclosed hw hw' hi⟩

theorem Welcomes.processAcceptEvents (server : Int) :
    WellFormed (processAcceptEvents server s).2 ∧ I (processAcceptEvents server s).2 :=
  iterate_rule (I := fun _ t => WellFormed t ∧ I t) (Q := fun _ t => WellFormed t ∧ I t)
    (fun _ _ _ ht _ => hI.acceptStep ht.1 ht.2 _) (fun _ _ _ ht _ => hI.acceptStep ht.1 ht.2 _)
    (fun _ _ ht => ht) (netFuel s.world).1 (b := ()) ⟨h, hs⟩

theorem Welcomes.acceptEvents : WellFormed (acceptEvents s).2 ∧ I (acceptEvents s).2 := by
  obtain ⟨hw, hi⟩ := hI.processAcceptEvents h hs s.server
  exact ⟨hw.grow (grows_frame.refl _) _ _ _, hI.idle _ _ _ hw hi (idle_frame.refl _)⟩

end Welcomes

section Endures

variable {I : Server → Prop} (hI : Endures I) {s : Server} (h : WellFormed s) (hs : I s)

include hI h hs

theorem Endures.processSlot (i : Fin MAX_CLIENTS) : I (processSlot i s).2 := by
  rcases processSlot_cases h i with ⟨-, he⟩ | ⟨p, c, hi, hp, ⟨hr, he⟩ | ⟨-, he⟩⟩
  · rw [he]
    exact hs
  · rw [he]
    exact hI.stay h hs hp hr
  · rw [he]
    exact hI.leave h hs hi hp (.inl rfl)

theorem Endures.cleanupSlot (i : Fin MAX_CLIENTS) :
    WellFormed (cleanupSlot i s).2 ∧ I (cleanupSlot i s).2 ∧ (cleanupSlot i s).2.clients i = none ∧
      ∀ j, s.clients j = none → (cleanupSlot i s).2.clients j = none := by
  rcases cleanupSlot_cases h i with ⟨hi, he⟩ | ⟨p, c, hi, hp, he⟩
  · rw [he]
    exact ⟨h, hs, hi, fun _ hj => hj⟩
  · have hrun : ((dismiss *> pure () : Ses Unit) ⟨c, s.world⟩).2 = (dismiss ⟨c, s.world⟩).2 := by
      simp only [seqRight_run, pure_run]
    have hleave := hI.leave h hs hi hp (m := dismiss *> pure ()) (.inr rfl)
    have happart := dismiss_apart ⟨c, s.world⟩
    rw [hrun] at hleave
    rw [he]
    generalize (dismiss ⟨c, s.world⟩).2 = t at hleave happart ⊢
    refine ⟨(h.turn hp happart).leave hi (closeSockets_grows t), hleave, by simp [Server.without],
      fun j hj => ?_⟩
    by_cases hji : j = i
    · simp [Server.without, hji]
    · simpa [Server.without, Server.withSession, hji] using hj

theorem Endures.cleanupSlots (is : List (Fin MAX_CLIENTS)) (rest : ∀ j, j ∉ is → s.clients j = none) :
    WellFormed (Prog.forEach is Ftpii.cleanupSlot s).2 ∧ I (Prog.forEach is Ftpii.cleanupSlot s).2 ∧
      ∀ j, (Prog.forEach is Ftpii.cleanupSlot s).2.clients j = none := by
  induction is generalizing s with
  | nil => exact ⟨h, hs, fun j => rest j (by simp)⟩
  | cons i is ih =>
    obtain ⟨hw, hi, hgone, hkept⟩ := hI.cleanupSlot h hs i
    refine ih hw hi fun j hj => ?_
    by_cases hji : j = i
    · exact hji ▸ hgone
    · exact hkept j (rest j (by simp [hji, hj]))

end Endures

theorem Welcomes.step {I : Server → Prop} (hI : Welcomes I) {s : Server} (h : WellFormed s) (hs : I s)
    {l : Label} (hreinit : l ≠ .reinit) (hslot : ∀ i, l ≠ .slot i) (hshutdown : l ≠ .shutdown) :
    WellFormed (s.step l) ∧ I (s.step l) := by
  unfold Server.step
  split
  · exact ⟨h, hs⟩
  cases l with
  | env answers => exact hI.sys h hs fun w => idle_answers w answers
  | reinit => exact absurd rfl hreinit
  | dvdMount => exact hI.sys h hs (checkDvdMount_keeps idle_devices.drives fun _ => trivial)
  | accept => exact hI.acceptEvents h hs
  | slot i => exact absurd rfl (hslot i)
  | wiimote => exact hI.sys h hs (idle_devices.console.wiimoteEvents idle_reset)
  | gamecube => exact hI.sys h hs (idle_devices.console.gamecubeEvents idle_reset)
  | timers => exact hI.sys h hs (idle_devices.console.timerEvents)
  | shutdown => exact absurd rfl hshutdown

/-- A step while clients are served keeps the table and the invariant. -/
theorem Endures.step {I : Server → Prop} (hI : Endures I) {s : Server} (h : WellFormed s) (hs : I s)
    {l : Label} (hreinit : l ≠ .reinit) (hshutdown : l ≠ .shutdown) :
    WellFormed (s.step l) ∧ I (s.step l) := by
  by_cases hslot : ∃ i, l = .slot i
  · obtain ⟨i, rfl⟩ := hslot
    unfold Server.step
    split
    · exact ⟨h, hs⟩
    · exact ⟨processSlot_wellFormed h i, hI.processSlot h hs i⟩
  · exact hI.toWelcomes.step h hs hreinit (fun i hi => hslot ⟨i, hi⟩) hshutdown

theorem Survives.shutdown {I : Server → Prop} (hI : Survives I) {s : Server} (h : WellFormed s)
    (hs : I s) : WellFormed (shutdown s).2 ∧ I (shutdown s).2 := by
  obtain ⟨hw, hi, hgone⟩ := hI.cleanupSlots h hs (List.finRange MAX_CLIENTS)
    fun j hj => absurd (List.mem_finRange j) hj
  obtain ⟨w, hidle, he⟩ := shutdown_run s
  let t := (cleanupFtp s).2
  let v : Server := { t with world := (netClose t.server t.world).2 }
  have hv : WellFormed v :=
    hw.grow (netClose_keeps grows_sockets t.server t.world) t.server t.networkDown t.halted
  rw [he]
  exact ⟨hv.grow hidle.grows t.server t.networkDown true,
    hI.idle (s := v) t.server t.networkDown true hv (hI.finish hw hi hgone) hidle⟩

/-- A step keeps the table and the invariant, if bringing the network up again does. -/
theorem Survives.step {I : Server → Prop} (hI : Survives I) {s : Server} (h : WellFormed s)
    (hs : I s) (l : Label)
    (renew : l = .reinit → ∀ w server down halted, Network s.world w →
      I { s with world := w, server := server, networkDown := down, halted := halted }) :
    WellFormed (s.step l) ∧ I (s.step l) := by
  by_cases hreinit : l = .reinit
  · subst hreinit
    unfold Server.step
    split
    · exact ⟨h, hs⟩
    · obtain ⟨w, server, down, halted, hn, he⟩ := reinitialise_cases s
      simp only [Label.run, he]
      exact ⟨h.grow hn.grows server down halted, renew rfl w server down halted hn⟩
  · by_cases hshutdown : l = .shutdown
    · subst hshutdown
      unfold Server.step
      split
      · exact ⟨h, hs⟩
      · exact hI.shutdown h hs
    · exact hI.toEndures.step h hs hreinit hshutdown

theorem Survives.run {I : Server → Prop} (hI : Survives I)
    (renew : ∀ s, I s → ∀ w server down halted, Network s.world w →
      I { s with world := w, server := server, networkDown := down, halted := halted })
    {s : Server} (h : WellFormed s) (hs : I s) (ls : List Label) :
    WellFormed (ls.foldl Server.step s) ∧ I (ls.foldl Server.step s) := by
  induction ls generalizing s with
  | nil => exact ⟨h, hs⟩
  | cons l ls ih =>
    obtain ⟨hw, hi⟩ := hI.step h hs l fun _ => renew s hs
    exact ih hw hi

section WorldUse

variable {P : World → World → Prop} (hP : WorldUse P)

include hP

theorem WorldUse.turn (c : Client) : Keeps (OnWorld P) (turn c) :=
  .ite (dataEvents_keeps hP.data) (controlEvents_keeps hP.control.reads)

/-- What every update of the world keeps, every step of the system keeps. -/
theorem WorldUse.survives (idle : ∀ {w w' : World}, Idle w w' → P w w') (w₀ : World) :
    Survives fun s => P w₀ s.world := by
  have hopen : ∀ {w w₁ w' : World} {peer : Int}, w.socks peer = none → Idle w w₁ →
      Idle (w₁.openedSock peer) w' → P w w' := fun {w w₁ w' peer} hclosed hw hw' =>
    hP.sockets.trans (idle hw) <| hP.sockets.trans
      (hP.sockets.opened w₁ peer (by rw [hw.socks]; exact hclosed)) (idle hw')
  have hgreet : ∀ (w : World) peer address, P w (greeted w peer address).world :=
    fun w peer address => writeReply_keeps hP.replies _ _ ⟨newClient w peer address, w⟩
  have hclose : ∀ s : Session, P s.world (closeSockets s).2.world :=
    closeSockets_keeps hP.data.releases fun s _ => hP.sockets.refl s.world
  exact
    { idle := fun _ _ _ _ hs hi => hP.sockets.trans hs (idle hi)
      away := fun _ hs _ hclosed hw hw' => hP.sockets.trans hs <|
        hP.sockets.trans (hopen hclosed hw hw') (netClose_keeps hP.sockets _ _)
      ungreeted := fun address _ hs _ hclosed hw hw' => hP.sockets.trans hs <|
        hP.sockets.trans (hopen hclosed hw hw') <|
          hP.sockets.trans (hgreet _ _ address) (netCloseBlocking_keeps hP.sockets _ _)
      enter := fun address _ hs _ hclosed hw hw' _ => hP.sockets.trans hs <|
        hP.sockets.trans (hopen hclosed hw hw') (hgreet _ _ address)
      stay := fun {s _ c} _ hs _ _ => hP.sockets.trans hs (hP.turn c ⟨c, s.world⟩)
      leave := fun {s _ _ c _} _ hs _ _ hm => by
        refine hP.sockets.trans hs (hP.sockets.trans ?_ (hclose _))
        rcases hm with rfl | rfl
        · exact hP.turn c ⟨c, s.world⟩
        · exact writeReply_keeps hP.replies _ _ ⟨c, s.world⟩
      finish := fun {s} _ hs _ => hP.sockets.trans hs (netClose_keeps hP.sockets s.server s.world) }

theorem WorldUse.run (idle : ∀ {w w' : World}, Idle w w' → P w w')
    (deinit : ∀ w, P w (netDeinit w).2) {s : Server} (h : WellFormed s) (ls : List Label) :
    P s.world (ls.foldl Server.step s).world :=
  ((hP.survives idle s.world).run
    (fun _ ht _ _ _ _ hn => hP.sockets.trans ht (hn P hP.sockets deinit)) h
    (hP.sockets.refl s.world) ls).2

end WorldUse

/-! ## Runs -/

/-- The program as main enters its loop. -/
def Server.Initial (s : Server) : Prop :=
  ∃ disk mounted strerror argv,
    s = Server.boot (initialisePassword argv (World.boot disk mounted strerror)).2

theorem initialisePassword_password (argv : List Str) (w : World) :
    ∃ p, (initialisePassword argv w).2 = { w with password := p } := by
  unfold initialisePassword
  split
  · exact ⟨_, rfl⟩
  · simp only [setPasswordFromExecutable]
    split
    · exact ⟨_, rfl⟩
    · exact ⟨w.password, rfl⟩
  · exact ⟨w.password, rfl⟩

theorem Server.Initial.eq {s : Server} (h : s.Initial) : ∃ disk mounted strerror password,
    s = Server.boot { World.boot disk mounted strerror with password := password } := by
  obtain ⟨disk, mounted, strerror, argv, rfl⟩ := h
  obtain ⟨p, hp⟩ := initialisePassword_password argv (World.boot disk mounted strerror)
  exact ⟨disk, mounted, strerror, p, by rw [hp]⟩

theorem Server.Initial.wellFormed {s : Server} (h : s.Initial) : WellFormed s := by
  obtain ⟨disk, mounted, strerror, password, rfl⟩ := h.eq
  constructor <;> simp [Server.boot, World.boot, Server.slots]

/-- The states of the system that steps meeting the guard lead to. -/
abbrev Reachable (guard : Server → Label → Prop) : Server → Prop :=
  Reach Server.Initial Server.step guard

theorem Survives.reach {I : Server → Prop} (hI : Survives I) {guard : Server → Label → Prop}
    (start : ∀ s : Server, s.Initial → I s)
    (renew : ∀ s, WellFormed s → I s → guard s .reinit → ∀ w server down halted,
      Network s.world w →
      I { s with world := w, server := server, networkDown := down, halted := halted })
    {s : Server} (h : Reachable guard s) : WellFormed s ∧ I s := by
  refine Reach.invariant (I := fun s => WellFormed s ∧ I s)
    (fun s hs => ⟨hs.wellFormed, start s hs⟩) (fun s l hs hg => ?_) h
  exact hI.step hs.1 hs.2 l (by rintro rfl; exact renew s hs.1 hs.2 hg)

theorem Survives.exists {ι : Type} {I : ι → Server → Prop} (hI : ∀ a, Survives (I a)) :
    Survives fun s => ∃ a, I a s where
  idle server down halted h hs hi := hs.imp fun a ha => (hI a).idle server down halted h ha hi
  away h hs hp hc hi hi' := hs.imp fun a ha => (hI a).away h ha hp hc hi hi'
  ungreeted address h hs hp hc hi hi' :=
    hs.imp fun a ha => (hI a).ungreeted address h ha hp hc hi hi'
  enter address h hs hp hc hi hi' hf :=
    hs.imp fun a ha => (hI a).enter address h ha hp hc hi hi' hf
  stay h hs hp hr := hs.imp fun a ha => (hI a).stay h ha hp hr
  leave h hs hi hp hm := hs.imp fun a ha => (hI a).leave h ha hi hp hm
  finish h hs hf := hs.imp fun a ha => (hI a).finish h ha hf

theorem survives_true : Survives fun _ => True where
  toWelcomes := by constructor <;> intros <;> trivial
  stay _ _ _ _ := trivial
  leave _ _ _ _ _ := trivial
  finish _ _ _ := trivial

theorem Reachable.wellFormed {guard : Server → Label → Prop} {s : Server}
    (h : Reachable guard s) : WellFormed s :=
  (survives_true.reach (fun _ _ => trivial) (fun _ _ _ _ _ _ _ _ _ => trivial) h).1

/-! ## The main loop -/

def IgnoresDown {α : Type} (m : Sys α) : Prop :=
  ∀ (s : Server) (b : Bool), m { s with networkDown := b } =
    ((m s).1, { (m s).2 with networkDown := b })

section IgnoresDown

variable {α β : Type}

theorem IgnoresDown.pure (a : α) : IgnoresDown (pure a : Sys α) := fun _ _ => rfl

theorem IgnoresDown.bind {m : Sys α} {f : α → Sys β} (hm : IgnoresDown m)
    (hf : ∀ a, IgnoresDown (f a)) : IgnoresDown (m >>= f) := by
  intro s b
  rw [bind_run, hm s b, hf _ _ b, bind_run]

theorem IgnoresDown.ite {c : Prop} [Decidable c] {m k : Sys α} (hm : IgnoresDown m)
    (hk : IgnoresDown k) : IgnoresDown (if c then m else k) := by
  split
  · exact hm
  · exact hk

theorem IgnoresDown.forEach {body : β → Sys Unit} (h : ∀ b, IgnoresDown (body b)) (bs : List β) :
    IgnoresDown (Prog.forEach bs body) := by
  induction bs with
  | nil => exact .pure ()
  | cons b bs ih => exact .bind (h b) fun _ => ih

theorem withClient_ignoresDown [Inhabited α] (p : Nat) (m : Ses α) : IgnoresDown (withClient p m) := by
  intro s b
  unfold withClient
  cases s.heap p <;> rfl

theorem replaceSlot_ignoresDown (old new : Option Nat) : IgnoresDown (replaceSlot old new) := by
  intro s b
  have hf : ({ s with networkDown := b } : Server).findSlot old = s.findSlot old := rfl
  simp only [replaceSlot, modify_run, hf]
  cases s.findSlot old <;> rfl

theorem cleanupClient_ignoresDown (p : Nat) : IgnoresDown (cleanupClient p) :=
  .bind (withClient_ignoresDown p _) fun _ => .bind (replaceSlot_ignoresDown _ _) fun _ =>
    .bind (fun _ _ => rfl) fun _ _ _ => rfl

theorem processSlot_ignoresDown (i : Fin MAX_CLIENTS) : IgnoresDown (processSlot i) := by
  intro s b
  simp only [processSlot, bind_run, get_run]
  cases s.clients i with
  | none => rfl
  | some p =>
    have hend : ∀ m : Ses Bool, IgnoresDown (do
        let close ← withClient p m
        if close then cleanupClient p else Pure.pure ()) := fun m =>
      .bind (withClient_ignoresDown p m) fun _ => .ite (cleanupClient_ignoresDown p) (.pure ())
    exact IgnoresDown.bind (withClient_ignoresDown p _)
      (fun _ => .ite (hend dataEvents) (hend controlEvents)) s b

end IgnoresDown

theorem processSlot_halted {s : Server} (h : WellFormed s) (i : Fin MAX_CLIENTS) :
    (processSlot i s).2.halted = s.halted := by
  rcases processSlot_cases h i with ⟨-, he⟩ | ⟨p, c, -, -, ⟨-, he⟩ | ⟨-, he⟩⟩ <;>
    simp [he, Server.withSession, Server.without]

def serveLabels : List Label :=
  [.dvdMount, .accept] ++ (List.finRange MAX_CLIENTS).map Label.slot ++ [.wiimote, .gamecube, .timers]

def iterationLabels (s : Server) : List Label :=
  let up := if s.networkDown then [.reinit] else []
  let t := up.foldl Server.step s
  up ++ if t.halted || t.networkDown then [] else serveLabels

theorem slots_run {s : Server} (h : WellFormed s) (hh : s.halted = false)
    (is : List (Fin MAX_CLIENTS)) :
    (is.map Label.slot).foldl Server.step s = (Prog.forEach is processSlot s).2 ∧
      (Prog.forEach is processSlot s).2.halted = false := by
  induction is generalizing s with
  | nil => exact ⟨rfl, hh⟩
  | cons i is ih =>
    have hstep : s.step (.slot i) = (processSlot i s).2 := by simp [Server.step, hh, Label.run]
    obtain ⟨he, hh'⟩ := ih (processSlot_wellFormed h i) ((processSlot_halted h i).trans hh)
    refine ⟨?_, hh'⟩
    rw [List.map_cons, List.foldl_cons, hstep, he]
    rfl

theorem acceptStep_halted {s : Server} (h : WellFormed s) (server : Int) :
    (acceptStep server s).2.halted = s.halted := by
  rcases acceptStep_cases h server with
    ⟨-, he⟩ | ⟨peer, address, w, w', -, -, -, -, he | ⟨-, he⟩ | ⟨i, -, he⟩⟩ <;>
    simp [he, Server.entering]

theorem processAcceptEvents_halted {s : Server} (h : WellFormed s) (server : Int) :
    (processAcceptEvents server s).2.halted = s.halted := by
  have hstep : ∀ t, WellFormed t ∧ t.halted = s.halted →
      WellFormed (acceptStep server t).2 ∧ (acceptStep server t).2.halted = s.halted := fun t ht =>
    ⟨(survives_true.acceptStep ht.1 trivial server).1, (acceptStep_halted ht.1 server).trans ht.2⟩
  have hloop : WellFormed (processAcceptEvents server s).2 ∧
      (processAcceptEvents server s).2.halted = s.halted :=
    iterate_rule (I := fun _ t => WellFormed t ∧ t.halted = s.halted)
      (Q := fun _ t => WellFormed t ∧ t.halted = s.halted)
      (fun _ t _ ht _ => hstep t ht) (fun _ t _ ht _ => hstep t ht) (fun _ _ ht => ht)
      (netFuel s.world).1 (b := ()) ⟨h, rfl⟩
  exact hloop.2

theorem serveEvents_run {t : Server} (ht : WellFormed t) (hh : t.halted = false) :
    (serveEvents t.server t).2 = serveLabels.foldl Server.step t := by
  let u := (sys checkDvdMount t).2
  have hu : WellFormed u := (survives_true.sys ht trivial (checkDvdMount_keeps idle_devices.drives fun _ => trivial)).1
  let v := (processAcceptEvents u.server u).2
  have hv : WellFormed v := (survives_true.processAcceptEvents hu trivial u.server).1
  have hvh : v.halted = false := (processAcceptEvents_halted hu u.server).trans hh
  let down := !(processAcceptEvents u.server u).1
  have hdvd : t.step .dvdMount = u := by simp [Server.step, hh, Label.run, u]
  have haccept : u.step .accept = { v with networkDown := down } := by
    have huh : u.halted = false := hh
    simp [Server.step, huh, Label.run, acceptEvents, v, down]
  obtain ⟨hslots, hsh⟩ := slots_run (s := { v with networkDown := down })
    (hv.grow (grows_frame.refl _) _ _ _) hvh (List.finRange MAX_CLIENTS)
  have hignore := IgnoresDown.forEach processSlot_ignoresDown (List.finRange MAX_CLIENTS) v down
  rw [hignore] at hslots hsh
  have hlast : ∀ r : Server, r.halted = false →
      (do
        sys processWiimoteEvents
        sys processGamecubeEvents
        sys processTimerEvents : Sys Unit) r =
      ((), [Label.wiimote, .gamecube, .timers].foldl Server.step r) := by
    intro r hr
    simp [Server.step, Label.run, sys_run, hr]
  simp only [serveLabels, List.foldl_append, List.foldl_cons, List.foldl_nil, hdvd, haccept, hslots]
  exact congrArg Prod.snd (hlast _ hsh)

/-- A round of the loop is a run of the system. -/
theorem mainIteration_run {s : Server} (h : WellFormed s) (hh : s.halted = false) :
    (mainIteration s).2 = (iterationLabels s).foldl Server.step s := by
  let up := if s.networkDown then [Label.reinit] else []
  let t := up.foldl Server.step s
  have hup : ((if s.networkDown then reinitialise else pure ()) s).2 = t := by
    cases hd : s.networkDown <;> simp [t, up, hd, Server.step, hh, Label.run]
  have ht : WellFormed t := by
    simp only [t, up]
    split
    · exact (survives_true.step h trivial .reinit fun _ _ _ _ _ _ => trivial).1
    · exact h
  have hmain : (mainIteration s).2 =
      ((if t.halted || t.networkDown then pure () else serveEvents t.server : Sys Unit) t).2 := by
    rw [← hup]
    rfl
  rw [hmain, iterationLabels, List.foldl_append, ite_run]
  split
  · rfl
  · rename_i hup'
    exact serveEvents_run ht (by simp_all)

theorem mainIteration_reachable {s : Server} (h : Reachable (fun _ _ => True) s)
    (hh : s.halted = false) : Reachable (fun _ _ => True) (mainIteration s).2 := by
  rw [mainIteration_run h.wellFormed hh]
  exact h.foldl _

end Ftpii
