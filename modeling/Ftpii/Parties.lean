import Ftpii.Alike
import Ftpii.Runs
set_option autoImplicit false

/-!
The system as its clients see it: they arrive and act in any order, each time in any world; only
the passive port is carried from one to the next. Every run of the server is such a run.
-/

namespace Ftpii
open StateProgram Prog

/-- The clients that ever arrived, and the port counter they share. -/
structure Parties where
  clients : Nat → Option Client
  passivePort : UInt16

def Parties.boot : Parties := { clients := fun _ => none, passivePort := 1024 }

inductive PartyEvent where
  | arrive (p : Nat) (w : World) (peer : Int) (address : SockAddr)
  | act (p : Nat) (w : World) (e : ClientEvent)

/-- The event of a client in a world whose port counter is given. -/
def ClientEvent.actWith (port : UInt16) (c : Client) (w : World) (e : ClientEvent) : Session :=
  ClientEvent.step ⟨c, w⟩ ({ w with passivePort := port }, e)

def Parties.step (s : Parties) : PartyEvent → Parties
  | .arrive p w peer address =>
    { s with clients := Function.update s.clients p (some (newClient w peer address)) }
  | .act p w e =>
    match s.clients p with
    | none => s
    | some c =>
      let t := e.actWith s.passivePort c w
      { clients := Function.update s.clients p (some t.client),
        passivePort := t.world.passivePort }

def Parties.run (es : List PartyEvent) : Parties := es.foldl Parties.step Parties.boot

@[simp] theorem Parties.run_concat (es : List PartyEvent) (e : PartyEvent) :
    Parties.run (es ++ [e]) = (Parties.run es).step e := by simp [Parties.run]

/-! ## The events of one turn -/

def soloStep (s : Client × UInt16) (i : World × ClientEvent) : Client × UInt16 :=
  let t := i.2.actWith s.2 s.1 i.1
  (t.client, t.world.passivePort)

/-- The session is the outcome of some events, as far as handlers can see. -/
def Acts (s t : Session) : Prop :=
  ∃ is : List (World × ClientEvent),
    (is.foldl soloStep (s.client, s.world.passivePort)).1.norm = t.client.norm ∧
      (is.foldl soloStep (s.client, s.world.passivePort)).2 = t.world.passivePort

theorem soloStep_norm {c d : Client} (h : c.norm = d.norm) (port : UInt16)
    (is : List (World × ClientEvent)) :
    (is.foldl soloStep (c, port)).1.norm = (is.foldl soloStep (d, port)).1.norm ∧
      (is.foldl soloStep (c, port)).2 = (is.foldl soloStep (d, port)).2 := by
  induction is generalizing c d port with
  | nil => exact ⟨h, rfl⟩
  | cons i is ih =>
    have hstep := ClientEvent.step_alike h i.1 i.1 ({ i.1 with passivePort := port }, i.2)
    have hport : (soloStep (c, port) i).2 = (soloStep (d, port) i).2 :=
      congrArg World.passivePort hstep.world
    have hnext := ih hstep.client (soloStep (c, port) i).2
    have hd : soloStep (d, port) i = ((soloStep (d, port) i).1, (soloStep (c, port) i).2) := by
      rw [hport]
    rw [List.foldl_cons, List.foldl_cons, hd]
    exact hnext

theorem acts_frame : Frame Acts where
  refl _ := ⟨[], rfl, rfl⟩
  trans := by
    rintro a b c ⟨is, hn, hp⟩ ⟨js, hn', hp'⟩
    obtain ⟨hsolo, hport⟩ := soloStep_norm hn b.world.passivePort js
    have hmid : is.foldl soloStep (a.client, a.world.passivePort) =
        ((is.foldl soloStep (a.client, a.world.passivePort)).1, b.world.passivePort) := by
      rw [← hp]
    refine ⟨is ++ js, ?_, ?_⟩
    · rw [List.foldl_append, hmid]
      exact hsolo.trans hn'
    · rw [List.foldl_append, hmid]
      exact hport.trans hp'

theorem acts_quiet {s t : Session} (hn : s.client.norm = t.client.norm)
    (hp : s.world.passivePort = t.world.passivePort) : Acts s t := ⟨[], hn, hp⟩

theorem acts_sockets (c : Client) : UsesSockets (At Acts c) where
  toFrame := frameAt acts_frame c
  answers _ _ _ := acts_quiet rfl rfl
  shrink _ := acts_quiet rfl rfl
  flags _ _ _ _ _ _ := acts_quiet rfl rfl
  write _ _ _ _ _ _ _ _ := acts_quiet rfl rfl
  opened _ _ _ := acts_quiet rfl rfl
  bound _ _ _ _ _ := acts_quiet rfl rfl
  listening _ _ _ _ := acts_quiet rfl rfl
  closed _ _ := acts_quiet rfl rfl
  waits _ _ _ := acts_quiet rfl rfl
  connects _ _ _ := acts_quiet rfl rfl
  received _ _ _ _ _ := acts_quiet rfl rfl

theorem acts_control : ControlUse Acts where
  toFrame := acts_frame
  sockets := acts_sockets
  event _ _ := acts_quiet rfl rfl
  buffer _ _ _ := acts_quiet rfl rfl
  command cmdLine s := ⟨[(s.world, .command cmdLine)], rfl, rfl⟩

theorem turn_acts (c : Client) : Keeps Acts (turn c) :=
  .ite (fun s => ⟨[(s.world, .data)], rfl, rfl⟩) (controlEvents_keeps acts_control.reads)

/-! ## Runs of the server -/

def SamePort (w w' : World) : Prop := w'.passivePort = w.passivePort

theorem samePort_frame : Frame SamePort where
  refl _ := rfl
  trans h h' := Eq.trans h' h

theorem SameStatics.port {w w' : World} (h : SameStatics w w') : SamePort w w' := h.2.1

theorem samePort_sockets : UsesSockets SamePort :=
  sameStatics_sockets.imp samePort_frame fun _ _ h => h.port

theorem samePort_streams : UsesStreams SamePort :=
  sameStatics_streams.imp samePort_frame fun _ _ h => h.port

theorem Idle.samePort {w w' : World} (h : Idle w w') : SamePort w w' := by
  obtain ⟨a, e, d, r, l, rfl, -⟩ := h
  rfl

theorem closeSockets_samePort : Keeps (OnWorld SamePort) closeSockets :=
  closeSockets_keeps (releases_onWorld samePort_sockets samePort_streams) fun _ _ => rfl

theorem samePort_replies : Replies (OnWorld SamePort) :=
  .of_sends (OnWorld.frame samePort_frame)
    (fun _ => samePort_sockets.toSends.mono fun _ _ => trivial) fun _ _ _ _ => rfl

theorem writeReply_samePort (code : Nat) (msg : Str) :
    Keeps (OnWorld SamePort) (writeReply code msg) := writeReply_keeps samePort_replies code msg

/-- A run of the parties in which every client of the server is found. -/
def Server.Explained (s : Server) : Prop :=
  ∃ es, (Parties.run es).passivePort = s.world.passivePort ∧
    ∀ p c, s.heap p = some c → ∃ d, (Parties.run es).clients p = some d ∧ d.norm = c.norm

theorem Server.Explained.quiet {s t : Server} (h : s.Explained) (hh : t.heap = s.heap)
    (hp : SamePort s.world t.world) : t.Explained := by
  obtain ⟨es, hport, hclients⟩ := h
  refine ⟨es, hport.trans (Eq.symm hp), ?_⟩
  rw [hh]
  exact hclients

theorem Parties.run_acts (s : Parties) {p : Nat} {d : Client} (hd : s.clients p = some d)
    (is : List (World × ClientEvent)) :
    (is.map fun i => PartyEvent.act p i.1 i.2).foldl Parties.step s =
      { clients := Function.update s.clients p (some (is.foldl soloStep (d, s.passivePort)).1),
        passivePort := (is.foldl soloStep (d, s.passivePort)).2 } := by
  induction is generalizing s d with
  | nil => simp [← hd]
  | cons i is ih =>
    have hstep : s.step (.act p i.1 i.2) =
        { clients := Function.update s.clients p (some (soloStep (d, s.passivePort) i).1),
          passivePort := (soloStep (d, s.passivePort) i).2 } := by
      simp [Parties.step, hd, soloStep]
    rw [List.map_cons, List.foldl_cons, hstep, ih _ (Function.update_self ..)]
    simp

theorem Server.Explained.session {s : Server} (h : s.Explained) {p : Nat} {c : Client}
    (hp : s.heap p = some c) {t : Session} (ht : Acts ⟨c, s.world⟩ t) :
    (s.withSession p t).Explained := by
  obtain ⟨es, hport, hclients⟩ := h
  obtain ⟨is, hn, hw⟩ := ht
  obtain ⟨d, hd, hdn⟩ := hclients p c hp
  obtain ⟨hsolo, hsport⟩ := soloStep_norm hdn s.world.passivePort is
  have hrun : Parties.run (es ++ is.map fun i => PartyEvent.act p i.1 i.2) =
      { clients := Function.update (Parties.run es).clients p
          (some (is.foldl soloStep (d, s.world.passivePort)).1),
        passivePort := (is.foldl soloStep (d, s.world.passivePort)).2 } := by
    rw [Parties.run, List.foldl_append, ← hport]
    exact Parties.run_acts _ hd is
  refine ⟨_, (congrArg Parties.passivePort hrun).trans (hsport.trans hw), fun q e hq => ?_⟩
  rw [hrun]
  by_cases hqp : q = p
  · subst hqp
    obtain rfl : t.client = e := by simpa [Server.withSession] using hq
    exact ⟨_, by simp, hsolo.trans hn⟩
  · obtain ⟨d', hd', hn'⟩ := hclients q e (by simpa [Server.withSession, hqp] using hq)
    exact ⟨d', by simpa [hqp] using hd', hn'⟩

theorem Server.Explained.leave {s : Server} (h : s.Explained) (i : Fin MAX_CLIENTS) (p : Nat)
    {w : World} (hw : SamePort s.world w) : (s.without i p w).Explained := by
  obtain ⟨es, hport, hclients⟩ := h
  refine ⟨es, hport.trans (Eq.symm hw), fun q e hq => ?_⟩
  have hqp : q ≠ p := by
    rintro rfl
    simp [Server.without] at hq
  exact hclients q e (by simpa [Server.without, hqp] using hq)

theorem turnedAway_samePort {w w' : World} {peer : Int} (hi' : Idle (w.openedSock peer) w') :
    SamePort w (turnedAway w' peer) := hi'.samePort

theorem explained_survives : Survives Server.Explained where
  idle _ _ _ _ hs hi := hs.quiet rfl hi.samePort
  away _ hs _ _ hi hi' :=
    hs.quiet rfl (samePort_frame.trans hi.samePort (turnedAway_samePort hi'))
  ungreeted {s w w' peer} address _ hs _ _ hi hi' := by
    have hopen : SamePort w w' := hi'.samePort
    have hgreet : SamePort w' (greeted w' peer address).world := writeReply_samePort _ _ _
    have hclose : SamePort (greeted w' peer address).world (ungreeted w' peer address) :=
      netCloseBlocking_keeps samePort_sockets peer _
    exact hs.quiet rfl (samePort_frame.trans hi.samePort <| samePort_frame.trans hopen <|
      samePort_frame.trans hgreet hclose)
  enter {s w w' peer i} address _ hs _ _ hi hi' _ := by
    obtain ⟨es, hport, hclients⟩ := hs
    have hopen : SamePort w w' := hi'.samePort
    have hgreet : SamePort w' (greeted w' peer address).world := writeReply_samePort _ _ _
    have hsame : SamePort s.world (greeted w' peer address).world :=
      samePort_frame.trans hi.samePort (samePort_frame.trans hopen hgreet)
    have hrun : Parties.run (es ++ [.arrive s.nextClient w' peer address]) =
        { clients := Function.update (Parties.run es).clients s.nextClient
            (some (newClient w' peer address)),
          passivePort := (Parties.run es).passivePort } := by
      simp [Parties.step]
    refine ⟨_, (congrArg Parties.passivePort hrun).trans (hport.trans hsame.symm), fun q e hq => ?_⟩
    rw [hrun]
    by_cases hqn : q = s.nextClient
    · subst hqn
      obtain rfl : newClient w' peer address = e := by
        simpa [Server.entering, greeted, writeReply_run, Session.emitted] using hq
      exact ⟨_, by simp, rfl⟩
    · obtain ⟨d, hd, hn⟩ := hclients q e (by simpa [Server.entering, hqn] using hq)
      exact ⟨d, by simpa [hqn] using hd, hn⟩
  stay _ hs hp _ := hs.session hp (turn_acts _ _)
  leave {s i p c m} _ hs _ hp hm := by
    have hact : Acts ⟨c, s.world⟩ (m ⟨c, s.world⟩).2 := by
      rcases hm with rfl | rfl
      · exact turn_acts c _
      · exact acts_quiet rfl (Eq.symm (writeReply_samePort _ _ _))
    exact (hs.session hp hact).leave i p (closeSockets_samePort _)
  finish _ hs _ := hs.quiet rfl (netClose_keeps samePort_sockets _ _)

/-- Whatever happens in a run of the server, a run of the parties explains it. -/
theorem Reachable.explained {guard : Server → Label → Prop} {s : Server} (h : Reachable guard s) :
    s.Explained := by
  refine (explained_survives.reach (fun s hs => ?_) (fun s _ hs _ w _ _ _ hw => ?_) h).2
  · obtain ⟨disk, mounted, strerror, password, rfl⟩ := hs.eq
    exact ⟨[], rfl, by simp [Server.boot]⟩
  · exact hs.quiet rfl (hw SamePort samePort_sockets fun _ => rfl)

/-- A client of the parties is at the end of a run of its own. -/
theorem Parties.run_client {es : List PartyEvent} {p : Nat} {c : Client}
    (h : (Parties.run es).clients p = some c) :
    ∃ w peer address is, (clientRun w peer address is).client = c := by
  induction es using List.reverseRecOn generalizing c with
  | nil => simp [Parties.run, Parties.boot] at h
  | append_singleton es e ih =>
    rw [Parties.run_concat] at h
    cases e with
    | arrive q w peer address =>
      by_cases hq : p = q
      · subst hq
        obtain rfl : newClient w peer address = c := by simpa [Parties.step] using h
        exact ⟨w, peer, address, [], rfl⟩
      · exact ih (by simpa [Parties.step, hq] using h)
    | act q w e =>
      cases hc : (Parties.run es).clients q with
      | none => exact ih (by simpa [Parties.step, hc] using h)
      | some d =>
        simp only [Parties.step, hc] at h
        by_cases hq : p = q
        · subst hq
          obtain ⟨w₀, peer, address, is, hrun⟩ := ih hc
          refine ⟨w₀, peer, address, is ++ [({ w with passivePort := (Parties.run es).passivePort }, e)],
            ?_⟩
          rw [clientRun_concat]
          subst hrun
          simpa [ClientEvent.actWith, ClientEvent.step] using h
        · exact ih (by simpa [hq] using h)

/-- Every client of the server is at the end of a run of its own, as far as handlers can see. -/
theorem Reachable.clientRun {guard : Server → Label → Prop} {s : Server} (h : Reachable guard s)
    {p : Nat} {c : Client} (hp : s.heap p = some c) :
    ∃ w peer address is, (clientRun w peer address is).client.norm = c.norm := by
  obtain ⟨es, -, hclients⟩ := h.explained
  obtain ⟨d, hd, hn⟩ := hclients p c hp
  obtain ⟨w, peer, address, is, rfl⟩ := Parties.run_client hd
  exact ⟨w, peer, address, is, hn⟩

end Ftpii
