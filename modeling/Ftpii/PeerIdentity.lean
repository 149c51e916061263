import Ftpii.Histories
import Ftpii.ControlStream
import Ftpii.ServerFootprint
set_option autoImplicit false

/-!
Whose bytes a client's commands are. A descriptor number may be given again once it is not
open, so a client that outlives its socket may come to read another peer's.
-/

namespace Ftpii
open StateProgram Prog

/-! ## Numbers and the sockets they were given to -/

/-- Every open socket is the last one that was given its number. -/
structure World.Registered (w : World) : Prop where
  lt : ∀ fd id, .opened fd id ∈ w.log → id < w.nextSock
  noted : ∀ fd k, w.socks fd = some k → .opened fd k.id ∈ w.log
  latest : ∀ fd k, w.socks fd = some k → ∀ id, .opened fd id ∈ w.log → id ≤ k.id

/-- Calls were noted, and the register was kept. -/
structure Logs (w w' : World) : Prop where
  log : w.log <+: w'.log
  registered : w.Registered → w'.Registered

theorem logs_frame : Frame Logs where
  refl _ := ⟨List.prefix_rfl, id⟩
  trans h h' := ⟨h.log.trans h'.log, h'.registered ∘ h.registered⟩

theorem Logs.of_calls {w w' : World} {l : List Call} (hl : w'.log = w.log ++ l)
    (hno : ∀ fd id, .opened fd id ∉ l) (hn : w'.nextSock = w.nextSock)
    (hs : ∀ fd k', w'.socks fd = some k' → ∃ k, w.socks fd = some k ∧ k.id = k'.id) :
    Logs w w' := by
  have hmem : ∀ fd id, .opened fd id ∈ w'.log ↔ .opened fd id ∈ w.log := by
    intro fd id
    simp [hl, hno]
  refine ⟨hl ▸ List.prefix_append _ _, fun h => ⟨fun fd id hm => ?_, fun fd k' hk => ?_,
    fun fd k' hk id hm => ?_⟩⟩
  · rw [hn]
    exact h.lt fd id ((hmem fd id).mp hm)
  · obtain ⟨k, hk, he⟩ := hs fd k' hk
    rw [hmem, ← he]
    exact h.noted fd k hk
  · obtain ⟨k, hk, he⟩ := hs fd k' hk
    rw [← he]
    exact h.latest fd k hk id ((hmem fd id).mp hm)

theorem Logs.of_same {w w' : World} (hl : w'.log = w.log) (hn : w'.nextSock = w.nextSock)
    (hs : w'.socks = w.socks) : Logs w w' :=
  .of_calls (l := []) (by rw [hl, List.append_nil]) (by simp) hn fun _ k hk => ⟨k, hs ▸ hk, rfl⟩

theorem Logs.of_setSock {w : World} {fd : Int} {k k' : Sock} (hk : w.socks fd = some k)
    (he : k'.id = k.id) : Logs w (w.setSock fd (some k')) := by
  refine .of_calls (l := []) (by simp [World.setSock]) (by simp) rfl fun x k'' hx => ?_
  by_cases hxf : x = fd
  · subst hxf
    obtain rfl : k' = k'' := by simpa [World.setSock] using hx
    exact ⟨k, hk, he.symm⟩
  · exact ⟨k'', by simpa [World.setSock, hxf] using hx, rfl⟩

theorem openedSock_socks (w : World) (fd : Int) :
    (w.openedSock fd).socks = Function.update w.socks fd (some { id := w.nextSock }) := rfl

theorem logs_opened (w : World) (fd : Int) : Logs w (w.openedSock fd) := by
  have hmem : ∀ x id, .opened x id ∈ (w.openedSock fd).log ↔
      .opened x id ∈ w.log ∨ x = fd ∧ id = w.nextSock := by
    intro x id
    simp [World.openedSock, World.record, World.setSock]
  refine ⟨List.prefix_append _ _, fun h => ⟨fun x id hm => ?_, fun x k hk => ?_,
    fun x k hk id hm => ?_⟩⟩
  · change id < w.nextSock + 1
    rcases (hmem x id).mp hm with hold | ⟨-, rfl⟩
    · exact Nat.lt_succ_of_lt (h.lt x id hold)
    · exact Nat.lt_succ_self _
  · rw [openedSock_socks] at hk
    rw [hmem]
    by_cases hx : x = fd
    · subst hx
      rw [Function.update_self] at hk
      obtain rfl := Option.some.inj hk
      exact .inr ⟨rfl, rfl⟩
    · rw [Function.update_of_ne hx] at hk
      exact .inl (h.noted x k hk)
  · rw [openedSock_socks] at hk
    by_cases hx : x = fd
    · subst hx
      rw [Function.update_self] at hk
      obtain rfl := Option.some.inj hk
      rcases (hmem x id).mp hm with hold | ⟨-, rfl⟩
      · exact (h.lt x id hold).le
      · exact le_rfl
    · rw [Function.update_of_ne hx] at hk
      rcases (hmem x id).mp hm with hold | ⟨he, -⟩
      · exact h.latest x k hk id hold
      · exact absurd he hx

theorem logs_closed (w : World) (fd : Int) :
    Logs w ((w.setSock fd none).record (.closed fd ((w.socks fd).map Sock.id))) := by
  refine .of_calls rfl (by simp) rfl fun x k hx => ?_
  by_cases hxf : x = fd
  · simp [World.record, World.setSock, hxf] at hx
  · exact ⟨k, by simpa [World.record, World.setSock, hxf] using hx, rfl⟩

theorem logs_deinit (w : World) : Logs w (netDeinit w).2 :=
  .of_calls rfl (by simp) rfl fun _ _ hx => by simp [netDeinit, World.record] at hx

theorem logs_noted (w : World) (c : Call) (hno : ∀ fd id, c ≠ .opened fd id) :
    Logs w (w.record c) :=
  .of_calls rfl (fun fd id hm => hno fd id (List.mem_singleton.mp hm).symm) rfl
    fun _ k hx => ⟨k, hx, rfl⟩

theorem logs_sockets : UsesSockets Logs where
  toFrame := logs_frame
  answers _ _ _ := .of_same rfl rfl rfl
  shrink _ := .of_same rfl rfl rfl
  flags _ _ _ _ _ hk := .of_setSock hk rfl
  write w s k d n r _ _ := by
    have hsent : Logs w { w with sent := Function.update w.sent k.id (w.sent k.id ++ d) } :=
      .of_same rfl rfl rfl
    exact logs_frame.trans hsent (logs_noted _ (.write s n r) (by simp))
  opened w s _ := logs_opened w s
  bound _ _ _ _ hk := .of_setSock hk rfl
  listening _ _ _ hk := .of_setSock hk rfl
  closed := logs_closed
  waits w s b := logs_noted w (.waits s b) (by simp)
  connects w s a := logs_noted w (.connects s a) (by simp)
  received _ _ _ _ _ := .of_same rfl rfl rfl

theorem logs_devices : UsesDevices Logs where
  toFrame := logs_frame
  answers _ _ _ := .of_same rfl rfl rfl
  devices _ _ := .of_same rfl rfl rfl

theorem logs_use : WorldUse Logs where
  sockets := logs_sockets
  streams :=
    { toFrame := logs_frame
      answers := fun _ _ _ => .of_same rfl rfl rfl
      errno := fun _ _ => .of_same rfl rfl rfl
      disk := fun _ _ => .of_same rfl rfl rfl
      renamed := fun w a b => logs_noted w (.rename a b) (by simp)
      opened := fun _ _ => .of_same rfl rfl rfl
      stream := fun _ _ _ _ _ _ => .of_same rfl rfl rfl
      close := fun _ _ _ _ => .of_same rfl rfl rfl }
  devices := logs_devices.mounts
  emit _ _ _ := .of_same rfl rfl rfl
  statics _ _ _ _ _ := .of_same rfl rfl rfl

theorem Idle.logs {w w' : World} (h : Idle w w') : Logs w w' := by
  obtain ⟨a, e, d, r, l, rfl, hl⟩ := h
  refine .of_calls rfl (fun fd id hm => ?_) rfl fun _ k hx => ⟨k, hx, rfl⟩
  obtain ⟨s, b, he⟩ := hl _ hm
  contradiction

/-! ## The numbers of the clients -/

/-- Every client has the number that its connection was given. -/
structure Server.Registered (s : Server) : Prop where
  world : s.world.Registered
  clients : ∀ p c, s.heap p = some c → .opened c.socket c.conn ∈ s.world.log

theorem Server.Registered.calls {s : Server} (h : s.Registered) {w : World} (hw : Logs s.world w)
    (server : Int) (down halted : Bool) (n : Nat) : Server.Registered { s with
      world := w, server := server, networkDown := down, halted := halted, nextClient := n } :=
  ⟨hw.registered h.world, fun p c hp => hw.log.subset (h.clients p c hp)⟩

theorem accepted_logs {w w₁ w' : World} {peer : Int} (hw : Idle w w₁)
    (hw' : Idle (w₁.openedSock peer) w') :
    Logs w w' ∧ .opened peer w.nextSock ∈ w'.log := by
  refine ⟨logs_frame.trans hw.logs (logs_frame.trans (logs_opened w₁ peer) hw'.logs),
    hw'.logs.log.subset ?_⟩
  rw [← hw.nextSock]
  exact List.mem_append_right _ (List.mem_singleton_self _)

theorem greeted_logs {w w₁ w' : World} {peer : Int} (hw : Idle w w₁)
    (hw' : Idle (w₁.openedSock peer) w') (address : SockAddr) :
    Logs w (greeted w' peer address).world ∧
      .opened peer w.nextSock ∈ (greeted w' peer address).world.log := by
  obtain ⟨hlogs, hopened⟩ := accepted_logs hw hw'
  have hgreet : Logs w' (greeted w' peer address).world :=
    writeReply_keeps logs_use.replies _ _ ⟨newClient w' peer address, w'⟩
  exact ⟨logs_frame.trans hlogs hgreet, hgreet.log.subset hopened⟩

theorem logs_server : ServerUse Logs := logs_use.serverUse Idle.logs

theorem Server.Registered.leave {s : Server} (h : s.Registered) (i : Fin MAX_CLIENTS) (p : Nat)
    {t : Session} (ht : Logs s.world t.world) :
    Server.Registered ((s.withSession p t).without i p (closeSockets t).2.world) := by
  have hlogs : Logs s.world (closeSockets t).2.world := logs_frame.trans ht (logs_server.close t)
  refine ⟨hlogs.registered h.world, fun q c hq => hlogs.log.subset (h.clients q c ?_)⟩
  have hne : q ≠ p := by
    rintro rfl
    simp [Server.without] at hq
  simpa [Server.without, Server.withSession, hne] using hq

theorem survives_registered : Survives Server.Registered where
  idle server down halted _ hs hi := hs.calls hi.logs server down halted _
  away {s w w' peer} _ hs _ _ hi hi' := by
    have hlogs := logs_frame.trans (accepted_logs hi hi').1 (netClose_keeps logs_sockets peer w')
    exact hs.calls hlogs s.server s.networkDown s.halted _
  ungreeted {s w w' peer} address _ hs _ _ hi hi' := by
    have hlogs := logs_frame.trans (greeted_logs hi hi' address).1
      (netCloseBlocking_keeps logs_sockets peer _)
    exact hs.calls hlogs s.server s.networkDown s.halted _
  enter {s w w' peer i} address h hs _ _ hi hi' _ := by
    obtain ⟨hlogs, hopened⟩ := greeted_logs hi hi' address
    have hconn := (greeted_hist h hi hi' address).1
    have hsocket := (greeted_apart w' peer address).socket
    refine ⟨hlogs.registered hs.world, fun q c hq => ?_⟩
    by_cases he : q = s.nextClient
    · subst he
      obtain rfl : (greeted w' peer address).client = c := by simpa [Server.entering] using hq
      rw [hconn, hsocket]
      exact hopened
    · exact hlogs.log.subset (hs.clients q c (by simpa [Server.entering, he] using hq))
  stay {s p c} _ hs hp _ := by
    have hlogs : Logs s.world (turn c ⟨c, s.world⟩).2.world := logs_use.turn c ⟨c, s.world⟩
    have hapart := turn_apart c ⟨c, s.world⟩
    refine ⟨hlogs.registered hs.world, fun q d hq => ?_⟩
    by_cases he : q = p
    · subst he
      obtain rfl : (turn c ⟨c, s.world⟩).2.client = d := by simpa [Server.withSession] using hq
      rw [hapart.socket, hapart.conn]
      exact hlogs.log.subset (hs.clients q c hp)
    · exact hlogs.log.subset (hs.clients q d (by simpa [Server.withSession, he] using hq))
  leave {s i p c m} _ hs _ _ hm := by
    refine hs.leave i p ?_
    rcases hm with rfl | rfl
    · exact logs_use.turn c ⟨c, s.world⟩
    · exact logs_server.reply _ _ ⟨c, s.world⟩
  finish {s} _ hs _ :=
    hs.calls (netClose_keeps logs_sockets s.server s.world) s.server s.networkDown s.halted _

theorem Reachable.registered {guard : Server → Label → Prop} {s : Server}
    (h : Reachable guard s) : s.Registered := by
  refine (survives_registered.reach (fun s hs => ?_) (fun s _ hs _ w server down halted hn => ?_) h).2
  · obtain ⟨disk, mounted, strerror, password, rfl⟩ := hs.eq
    refine ⟨⟨?_, ?_, ?_⟩, ?_⟩ <;> simp [Server.boot, World.boot]
  · exact hs.calls (hn Logs logs_sockets logs_deinit) server down halted _

/-! ## What a turn hears -/

def Deaf (w w' : World) : Prop :=
  ∀ k id data, .recv id data ∈ w'.hist k → .recv id data ∈ w.hist k

theorem deaf_frame : Frame Deaf where
  refl _ _ _ _ := id
  trans h h' k id data := h k id data ∘ h' k id data

theorem Grows.deaf {w w' : World} (h : Grows w w') : Deaf w w' := by
  intro k id data hr
  rwa [h.hist] at hr

theorem deaf_emit (w : World) (k : Nat) {e : Event} (he : ∀ id data, e ≠ .recv id data) :
    Deaf w (w.emit k e) := by
  intro j id data hr
  by_cases hj : j = k
  · subst hj
    simp only [World.emit, Function.update_self, List.mem_append, List.mem_singleton] at hr
    rcases hr with hr | rfl
    · exact hr
    · exact absurd rfl (he id data)
  · simpa [World.emit, hj] using hr

theorem deaf_replies : Replies (OnWorld Deaf) := by
  refine .of_sends (OnWorld.frame deaf_frame) (fun c => ?_) fun s _ _ _ => deaf_emit s.world _ (by simp)
  exact (grows_sockets.imp (frameAt (OnWorld.frame deaf_frame) c) fun _ _ h => h.deaf).toSends.mono
    fun _ _ => trivial

theorem deaf_server : ServerUse Deaf where
  sockets := grows_sockets.imp deaf_frame fun _ _ h => h.deaf
  idle h := h.grows.deaf
  reply := writeReply_keeps deaf_replies
  close s := (closeSockets_grows s).deaf

/-- What was received in the meantime came from a socket that was given the client's number, the
client's own one or a later one. -/
structure Hears (s s' : Session) : Prop where
  apart : Apart s s'
  logs : Logs s.world s'.world
  heard : s.world.Registered → ∀ id data, .recv id data ∈ s'.story → .recv id data ∈ s.story ∨
    .opened s.client.socket id ∈ s'.world.log ∧
      ∀ j, .opened s.client.socket j ∈ s.world.log → j ≤ id

theorem hears_frame : Frame Hears where
  refl s := ⟨apart_frame.refl s, logs_frame.refl s.world, fun _ _ _ => .inl⟩
  trans {s t u} h h' := by
    refine ⟨apart_frame.trans h.apart h'.apart, logs_frame.trans h.logs h'.logs,
      fun hs id data hr => ?_⟩
    rcases h'.heard (h.logs.registered hs) id data hr with hold | ⟨hopened, hlast⟩
    · rcases h.heard hs id data hold with hold' | ⟨hopened, hlast⟩
      · exact .inl hold'
      · exact .inr ⟨h'.logs.log.subset hopened, hlast⟩
    · rw [h.apart.socket] at hopened hlast
      exact .inr ⟨hopened, fun j hj => hlast j (h.logs.log.subset hj)⟩

theorem Deaf.hears {s s' : Session} (ha : Apart s s') (hl : Logs s.world s'.world)
    (hd : Deaf s.world s'.world) : Hears s s' where
  apart := ha
  logs := hl
  heard _ id data hr := by
    rw [Session.story, ha.conn] at hr
    exact .inl (hd _ id data hr)

theorem hears_update (s : Session) (c : Client) (hc : c.conn = s.client.conn)
    (hs : c.socket = s.client.socket) : Hears s { s with client := c } :=
  Deaf.hears (apart_update s c hc hs) (logs_frame.refl s.world) (deaf_frame.refl s.world)

theorem hears_emit (s : Session) {e : Event} (he : ∀ id data, e ≠ .recv id data) :
    Hears s { s with world := s.world.emit s.client.conn e } :=
  Deaf.hears (apart_emit s e) (.of_same rfl rfl rfl) (deaf_emit s.world _ he)

theorem hears_world {c : Client} {w w' : World} (hg : Grows w w') (hl : Logs w w') :
    At Hears c w w' := Deaf.hears hg.apart hl hg.deaf

theorem hears_sockets (c : Client) : UsesSockets (At Hears c) :=
  (grows_sockets.and logs_sockets).imp (frameAt hears_frame c) fun _ _ h => hears_world h.1 h.2

theorem hears_streams (c : Client) : UsesStreams (At Hears c) :=
  (grows_streams.and logs_use.streams).imp (frameAt hears_frame c) fun _ _ h =>
    hears_world h.1 h.2

theorem hears_replies : Replies Hears :=
  .of_sends hears_frame (fun c => (hears_sockets c).toSends.mono fun _ _ => trivial)
    fun s _ _ _ => hears_emit s (by simp)

theorem hears_use : HandlerUse Hears where
  toReplies := hears_replies
  sockets := hears_sockets
  streams := hears_streams
  devices c := ((grows_devices.and logs_devices).imp (frameAt hears_frame c) fun _ _ h =>
    hears_world h.1 h.2).mounts
  unprepared s _ := hears_emit s (by simp)
  dataSocket s _ := hears_update s _ rfl rfl
  prepared s _ _ _ _ := hears_update s _ rfl rfl
  statics _ _ _ _ _ := hears_world ⟨le_rfl, rfl⟩ (.of_same rfl rfl rfl)
  type s _ := hears_update s _ rfl rfl
  pending s _ := hears_update s _ rfl rfl
  passive s _ := hears_update s _ rfl rfl
  address s _ := hears_update s _ rfl rfl

theorem processCommand_hears (cmdLine : Str) : Keeps Hears (processCommand cmdLine) :=
  processCommand_keeps
    (hears_use.handled_of (fun s => hears_update s _ rfl rfl) (fun s => hears_update s _ rfl rfl)
      (fun s _ => hears_update s _ rfl rfl) (fun s _ => hears_update s _ rfl rfl) cmdLine)
    fun s _ _ => hears_emit s (by simp)

theorem hears_data : DataUse Hears where
  toReplies := hears_replies
  sockets := hears_sockets
  streams c := (hears_streams c).toClosing
  data s _ _ _ _ _ _ := hears_update s _ rfl rfl

theorem netRead_from {fd : Int} {len id : Nat} {data : Str} {w : World}
    (h : (netRead fd len w).1 = .ok (id, data)) : ∃ k, w.socks fd = some k ∧ k.id = id := by
  rw [netRead_run] at h
  cases hk : w.socks fd with
  | none => simp [hk] at h
  | some k =>
    simp only [hk] at h
    split at h
    · simp at h
    · obtain ⟨he, -⟩ := Prod.mk.inj (Except.ok.inj h)
      exact ⟨k, rfl, he⟩

theorem heard_hears (s : Session) (len : Nat) : Hears s (s.heard len) := by
  have hread := netRead_keeps (hears_sockets s.client).toTalks s.client.socket len s.world
  have hgrow := netRead_keeps grows_sockets.toTalks s.client.socket len s.world
  simp only [Session.heard]
  cases hr : (netRead s.client.socket len s.world).1 with
  | error code => exact hears_frame.trans hread (hears_emit ⟨s.client, _⟩ (by simp))
  | ok r =>
    obtain ⟨id, data⟩ := r
    obtain ⟨k, hk, rfl⟩ := netRead_from hr
    let t : Session := ⟨s.client, (netRead s.client.socket len s.world).2⟩
    refine ⟨apart_frame.trans hread.apart (apart_emit t _),
      logs_frame.trans hread.logs (.of_same rfl rfl rfl), fun hs id' data' hmem => ?_⟩
    have hstory : (t.emitted (.recv k.id data)).story = s.story ++ [.recv k.id data] := by
      rw [story_emitted, Session.story, hgrow.hist]
    change _ ∈ (t.emitted (.recv k.id data)).story at hmem
    rw [hstory, List.mem_append, List.mem_singleton] at hmem
    rcases hmem with hold | hnew
    · exact .inl hold
    · obtain ⟨rfl, -⟩ := Event.recv.inj hnew
      exact .inr ⟨hread.logs.log.subset (hs.noted _ k hk), hs.latest _ k hk⟩

theorem hears_reads : ReadsLines Hears where
  toFrame := hears_frame
  heard := heard_hears
  event s e he := hears_emit s fun id data h => by
    subst h
    exact he
  buffer s _ _ := hears_update s _ rfl rfl
  command cmdLine s _ := processCommand_hears cmdLine s

theorem turn_hears (c : Client) : Keeps Hears (turn c) :=
  .ite (dataEvents_keeps hears_data) (controlEvents_keeps hears_reads)

/-- Whatever a step hears, a client of the table hears in its turn. -/
theorem step_hears {s : Server} (h : WellFormed s) (hs : s.Registered) (l : Label) {k id : Nat}
    {data : Str} (hr : .recv id data ∈ (s.step l).world.hist k) :
    .recv id data ∈ s.world.hist k ∨ ∃ p c, s.heap p = some c ∧ c.conn = k ∧ k ≤ id ∧
      .opened c.socket id ∈ (s.step l).world.log := by
  by_cases hslot : ∃ i, l = .slot i
  · obtain ⟨i, rfl⟩ := hslot
    by_cases hh : s.halted = true
    · simp only [Server.step, hh, if_true] at hr
      exact .inl hr
    · have hstep : s.step (.slot i) = (processSlot i s).2 := by simp [Server.step, hh, Label.run]
      rw [hstep] at hr ⊢
      rcases processSlot_cases h i with ⟨-, he⟩ | ⟨p, c, -, hp, hturn⟩
      · rw [he] at hr
        exact .inl hr
      · let t := (turn c ⟨c, s.world⟩).2
        have hears : Hears ⟨c, s.world⟩ t := turn_hears c ⟨c, s.world⟩
        obtain ⟨hist, hlog⟩ : (processSlot i s).2.world.hist = t.world.hist ∧
            t.world.log <+: (processSlot i s).2.world.log := by
          rcases hturn with ⟨-, he⟩ | ⟨-, he⟩
          · rw [he]
            exact ⟨rfl, List.prefix_rfl⟩
          · rw [he]
            exact ⟨(closeSockets_grows t).hist, (logs_server.close t).log⟩
        rw [hist] at hr
        by_cases hk : k = c.conn
        · subst hk
          have hstory : .recv id data ∈ t.story := by
            rw [Session.story, hears.apart.conn]
            exact hr
          rcases hears.heard hs.world id data hstory with hold | ⟨hopened, hlast⟩
          · exact .inl hold
          · exact .inr ⟨p, c, hp, rfl, hlast _ (hs.clients p c hp), hlog.subset hopened⟩
        · rw [hears.apart.hist k hk] at hr
          exact .inl hr
  · by_cases hreinit : l = .reinit
    · subst hreinit
      by_cases hh : s.halted = true
      · simp only [Server.step, hh, if_true] at hr
        exact .inl hr
      · obtain ⟨w, server, down, halted, hn, he⟩ := reinitialise_cases s
        have hstep : s.step .reinit = (reinitialise s).2 := by simp [Server.step, hh, Label.run]
        rw [hstep, he] at hr
        exact .inl (hn.grows.deaf k id data hr)
    · have hdeaf := deaf_server.step (fun i hi => hslot ⟨i, hi⟩) hreinit s
      exact .inl (hdeaf.world k id data hr)

/-! ## Runs -/

/-- After this step a number that a client of the table has was given to another socket. -/
def Server.GivenAgain (s : Server) (l : Label) : Prop :=
  ∃ p c id, s.heap p = some c ∧ c.conn < id ∧ .opened c.socket id ∈ (s.step l).world.log

/-- Whatever was received as a connection's was read from the socket accepted for it. -/
def Server.Faithful (s : Server) : Prop :=
  ∀ k id data, .recv id data ∈ s.world.hist k → id = k

/-- In every run in which no client's number is given again before its cleanup, the lines that are
executed for a client are cut from bytes that were sent to its own connection. -/
theorem commands_from_peer {s : Server} (h : Reachable (fun s l => ¬ s.GivenAgain l) s) :
    s.Faithful ∧ ∀ p c, s.heap p = some c → Told (s.world.hist c.conn) (c.buf.take c.offset) := by
  refine ⟨?_, fun p c hp => ((Conversation.reach conversation_true h).clients p c hp).1.told⟩
  refine Reach.invariant_of (I := Server.Faithful) (fun s hs k id data hr => ?_)
    (fun s l hreach hs hg k id data hr => ?_) h
  · obtain ⟨disk, mounted, strerror, password, rfl⟩ := hs.eq
    simp [Server.boot, World.boot] at hr
  · have hw := Reachable.wellFormed hreach
    rcases step_hears hw (Reachable.registered hreach) l hr with
      hold | ⟨p, c, hp, rfl, hle, hopened⟩
    · exact hs k id data hold
    · refine le_antisymm (not_lt.mp fun hlt => hg ⟨p, c, id, hp, hlt, hopened⟩) hle

/-- Nothing was opened since the clients came. -/
theorem not_givenAgain_of (ls : List Label) (l : Label)
    (h : ∀ p < (Server.after ls).nextClient, ∀ c ∈ (Server.after ls).heap p,
      (Server.after (ls ++ [l])).world.nextSock ≤ c.conn + 1) : ¬ (Server.after ls).GivenAgain l := by
  intro hagain
  obtain ⟨p, c, id, hp, hlt, hopened⟩ := hagain
  have hlive : p < (Server.after ls).nextClient := by
    refine not_le.mp fun hge => ?_
    rw [(after_reachable ls).wellFormed.fresh p hge] at hp
    contradiction
  have hstep : (Server.after ls).step l = Server.after (ls ++ [l]) := by simp [Server.after]
  rw [hstep] at hopened
  have hid := (after_reachable (ls ++ [l])).registered.world.lt _ _ hopened
  have hle := h p hlive c hp
  omega

/-- A number is given again to a peer whose commands are its own. -/
theorem commands_from_peer_returning :
    (Server.after returningRun).Faithful ∧
      ∃ c, (Server.after returningRun).heap 1 = some c ∧ c.socket = 4 ∧ c.conn = 2 ∧
        executed ((Server.after returningRun).world.hist c.conn) =
          ["PASS x".toList, "PWD".toList] ∧
        Told ((Server.after returningRun).world.hist c.conn) (c.buf.take c.offset) := by
  let first : Label := .env { net := [{}, { addr := { ip := 1 } }, { code := 3 }, {}, {},
    { code := 4 }, { code := -EAGAIN }, { data := "PWD\r\nQUIT\r\n".toList }] }
  let second : Label := .env { net := [{ code := 4, addr := { ip := 2 } }, { code := -EAGAIN },
    { data := "PASS x\r\nPWD\r\nNO".toList }] }
  have hrun : returningRun = [first, .reinit, .accept, firstTurn, second, .accept, firstTurn] := rfl
  have h0 : Reachable (fun s l => ¬ s.GivenAgain l) (Server.after []) :=
    .init ⟨_, _, _, [], rfl⟩
  have h1 := h0.step first (not_givenAgain_of [] _ (by decide))
  have h2 := h1.step .reinit (not_givenAgain_of [first] _ (by decide))
  have h3 := h2.step .accept (not_givenAgain_of [first, .reinit] _ (by decide))
  have h4 := h3.step firstTurn (not_givenAgain_of [first, .reinit, .accept] _
    (by decide +kernel))
  have h5 := h4.step second (not_givenAgain_of [first, .reinit, .accept, firstTurn] _
    (by decide +kernel))
  have h6 := h5.step .accept (not_givenAgain_of [first, .reinit, .accept, firstTurn, second] _
    (by decide +kernel))
  have h7 := h6.step firstTurn (not_givenAgain_of
    [first, .reinit, .accept, firstTurn, second, .accept] _ (by decide +kernel))
  have hr : Reachable (fun s l => ¬ s.GivenAgain l) (Server.after returningRun) := by
    rw [hrun]
    exact h7
  obtain ⟨hfaithful, htold⟩ := commands_from_peer hr
  obtain ⟨c, hc, hsocket, hconn, hexecuted⟩ := exists_client (s := Server.after returningRun) (p := 1)
    (fun c => c.socket = 4 ∧ c.conn = 2 ∧
      executed ((Server.after returningRun).world.hist c.conn) =
        ["PASS x".toList, "PWD".toList]) (by decide +kernel)
  exact ⟨hfaithful, c, hc, hsocket, hconn, hexecuted, htold 1 c hc⟩

/-- A round of the loop of main, in which the network calls have these outcomes. -/
def Server.round (s : Server) (net : List NetAnswer) : Server :=
  (mainIteration (s.step (.env { net := net }))).2

theorem round_reachable {s : Server} (h : Reachable (fun _ _ => True) s) (hh : s.halted = false)
    (net : List NetAnswer) : Reachable (fun _ _ => True) (s.round net) := by
  have henv : (s.step (.env { net := net })).halted = false := by
    simp [Server.step, Label.run, sys, hh]
  exact mainIteration_reachable (.step _ h trivial) henv

def comingUp : List NetAnswer :=
  [{}, { addr := { ip := 1 } }, { code := 3 }, {}, {}, { code := 4 }, { code := -EAGAIN }]

/-- A peer logs in, then accepting fails. -/
def abandoned : Server :=
  (Server.loaded.round (comingUp ++ [{ data := "PASS x\r\n".toList }, { code := -EAGAIN }])).round
    [{ code := -5 }, { code := -EAGAIN }]

/-- Once the network is up again the next peer gets the number that the first one had. -/
def imposture : Server :=
  abandoned.round (comingUp ++ [{ data := "DELE /sd/f\r\n".toList }, { code := -EAGAIN }])

theorem abandoned_reachable :
    Reachable (fun _ _ => True) abandoned ∧ abandoned.halted = false := by
  have hloaded : Reachable (fun _ _ => True) Server.loaded := after_reachable []
  have hrun : (Server.loaded.round (comingUp ++
      [{ data := "PASS x\r\n".toList }, { code := -EAGAIN }])).halted = false ∧
      abandoned.halted = false := by decide +kernel
  exact ⟨round_reachable (round_reachable hloaded rfl _) hrun.1 _, hrun.2⟩

/-- The second peer's command is executed for the first, who logged in. -/
theorem imposture_unfaithful : Reachable (fun _ _ => True) imposture ∧
    .command "DELE /sd/f".toList none ∈ imposture.world.hist 1 ∧ ¬ imposture.Faithful := by
  obtain ⟨hreach, hrunning⟩ := abandoned_reachable
  have hheard : .recv 3 "DELE /sd/f\r\n".toList ∈ imposture.world.hist 1 ∧
      .command "DELE /sd/f".toList none ∈ imposture.world.hist 1 := by decide +kernel
  refine ⟨round_reachable hreach hrunning _, hheard.2, fun hf => ?_⟩
  exact absurd (hf 1 3 _ hheard.1) (by decide)

end Ftpii
