import Ftpii.OpenSockets
set_option autoImplicit false

/-!
The mode of each socket. What a session sets to blocking mode it sets back or closes,
so that only a connection it accepts stays in that mode.
-/

namespace Ftpii
open StateProgram Prog

/-! ## Modes -/

def World.Settable (w : World) : Prop := ∀ r ∈ w.answers.fcntls, 0 ≤ r

/-- No socket under this number is in blocking mode. -/
def World.Quiet (w : World) (fd : Int) : Prop := ∀ k, w.socks fd = some k → k.blocking = false

/-- Only calls that meet Q were noted. -/
def Adds (Q : Call → Prop) (w w' : World) : Prop := ∃ l, w'.log = w.log ++ l ∧ ∀ c ∈ l, Q c

/-- The note of a wait in blocking mode is of a socket in T that was in it. -/
def World.Allows (w : World) (T : Set Int) (c : Call) : Prop :=
  ∀ fd, c = .waits fd true → fd ∈ T ∧ ¬ w.Quiet fd

/-- No socket was left in blocking mode that was not in it before, and only calls on the sockets
in T that were in it waited in it. -/
structure Calms (T : Set Int) (w w' : World) : Prop where
  drawn : w.answers.Drawn w'.answers
  modes : ∀ fd k, w'.socks fd = some k → k.blocking = true → w.socks fd = some k
  calls : Adds (w.Allows T) w w'

/-- As `Calms`, as long as net_fcntl succeeds. -/
def KeepsCalm (T : Set Int) (w w' : World) : Prop := w.Settable → Calms T w w'

/-- Only the socket under this number was changed, and no call waited. -/
structure Aside (fd : Int) (w w' : World) : Prop where
  drawn : w.answers.Drawn w'.answers
  others : ∀ x, x ≠ fd → w'.socks x = w.socks x
  calls : Adds (fun c => ∀ x b, c ≠ .waits x b) w w'

theorem Answers.Drawn.settable {w w' : World} (h : w.answers.Drawn w'.answers) (hs : w.Settable) :
    w'.Settable := fun r hr => hs r (h.fcntls.mem hr)

section Adds

variable {Q : Call → Prop} {w w' w'' : World}

theorem Adds.of_eq (h : w'.log = w.log) : Adds Q w w' := ⟨[], by simp [h], by simp⟩

theorem Adds.record {c : Call} (hc : Q c) : Adds Q w (w.record c) := ⟨[c], rfl, by simpa using hc⟩

theorem Adds.trans (h : Adds Q w w') (h' : Adds Q w' w'') : Adds Q w w'' := by
  obtain ⟨l, hl, hq⟩ := h
  obtain ⟨l', hl', hq'⟩ := h'
  refine ⟨l ++ l', by rw [hl', hl, List.append_assoc], fun c hc => ?_⟩
  exact (List.mem_append.mp hc).elim (hq c) (hq' c)

theorem Adds.mono {Q' : Call → Prop} (h : Adds Q w w') (hQ : ∀ c, Q c → Q' c) : Adds Q' w w' := by
  obtain ⟨l, hl, hq⟩ := h
  exact ⟨l, hl, fun c hc => hQ c (hq c hc)⟩

end Adds

section Modes

variable {T : Set Int} {fd : Int} {w w' : World}

theorem Calms.quiet (h : Calms T w w') (hq : w.Quiet fd) : w'.Quiet fd := by
  intro k hk
  cases hb : k.blocking with
  | false => rfl
  | true => exact hb ▸ hq k (h.modes fd k hk hb)

theorem calms_frame : Frame (Calms T) where
  refl w := ⟨.refl w.answers, fun _ _ hk _ => hk, .of_eq rfl⟩
  trans {a b c} h h' := by
    refine ⟨h.drawn.trans h'.drawn, fun fd k hk hb => ?_, h.calls.trans <|
      h'.calls.mono fun c hc fd he => ?_⟩
    · exact h.modes fd k (h'.modes fd k hk hb) hb
    · obtain ⟨hT, hq⟩ := hc fd he
      exact ⟨hT, fun hquiet => hq (h.quiet hquiet)⟩

theorem keepsCalm_frame : Frame (KeepsCalm T) where
  refl w _ := calms_frame.refl w
  trans h h' hs := calms_frame.trans (h hs) (h' ((h hs).drawn.settable hs))

theorem Calms.mono {S : Set Int} (h : Calms S w w') (hST : S ⊆ T) : Calms T w w' :=
  ⟨h.drawn, h.modes, h.calls.mono fun _ hc x he => (hc x he).imp_left fun hx => hST hx⟩

theorem Calms.of_same (ha : w.answers.Drawn w'.answers) (hs : w'.socks = w.socks)
    (hl : Adds (fun c => ∀ x b, c ≠ .waits x b) w w') : Calms T w w' :=
  ⟨ha, fun _ _ hk _ => hs ▸ hk, hl.mono fun _ hc x he => absurd he (hc x true)⟩

theorem aside_frame : Frame (Aside fd) where
  refl w := ⟨.refl w.answers, fun _ _ => rfl, .of_eq rfl⟩
  trans h h' := ⟨h.drawn.trans h'.drawn, fun x hx => (h'.others x hx).trans (h.others x hx),
    h.calls.trans h'.calls⟩

theorem Aside.of_same (ha : w.answers.Drawn w'.answers) (hs : w'.socks = w.socks)
    (hl : w'.log = w.log) : Aside fd w w' := ⟨ha, fun _ _ => by rw [hs], .of_eq hl⟩

theorem Aside.of_setSock (w : World) (fd : Int) (o : Option Sock) : Aside fd w (w.setSock fd o) :=
  ⟨.refl w.answers, fun x hx => by simp [World.setSock, hx], .of_eq rfl⟩

theorem aside_sends : Sends (· = fd) (Aside fd) where
  toFrame := aside_frame
  answers _ _ ha := .of_same ha rfl rfl
  shrink w := .of_same (.refl w.answers) rfl rfl
  flags w s k f hs _ := hs ▸ Aside.of_setSock w s _
  write w s k d n r _ _ := by
    have hnoted : Adds (fun c => ∀ x b, c ≠ .waits x b) w (w.record (.write s n r)) :=
      .record fun _ _ => Call.noConfusion
    exact ⟨.refl w.answers, fun _ _ => rfl, hnoted⟩

/-- A socket that ends in non-blocking mode may have had any. -/
theorem Aside.calms (h : Aside fd w w') (hq : w'.Quiet fd) : Calms T w w' := by
  refine ⟨h.drawn, fun x k hk hb => ?_, h.calls.mono fun _ hc x he => absurd he (hc x true)⟩
  by_cases hx : x = fd
  · subst hx
    have hoff := hq k hk
    rw [hb] at hoff
    contradiction
  · rwa [h.others x hx] at hk

/-! ## Setting the mode -/

theorem popFcntl_nonneg (hs : w.Settable) : 0 ≤ (popFcntl w).1 := by
  unfold popFcntl
  split
  · exact le_rfl
  · rename_i a as h
    exact hs a (by simp [h])

theorem setBlocking_set (hs : w.Settable) {k : Sock} (hk : w.socks fd = some k) (blocking : Bool) :
    (setBlocking fd blocking w).2.socks fd = some { k with
      flags := if blocking then k.flags &&& ~~~4#32 else k.flags ||| 4#32 } := by
  have hpop : Calms ∅ w (popFcntl w).2 :=
    popFcntl_keeps calms_frame (fun _ _ ha => .of_same ha rfl (.of_eq rfl)) w
  have hget : netFcntlGet fd w = ((0, k.flags), (popFcntl w).2) := by
    have hpos := popFcntl_nonneg hs
    simp only [netFcntlGet, hk, if_neg (not_lt.mpr hpos)]
  have hpos := popFcntl_nonneg (hpop.drawn.settable hs)
  have hk' : (popFcntl w).2.socks fd = some k := by rw [popFcntl_socks, hk]
  simp only [setBlocking, bind_run, hget, ite_run, pure_run, lt_irrefl, if_false, netFcntlSet, hk',
    if_neg (not_lt.mpr hpos)]
  simp [World.setSock]

theorem setBlocking_quiet (hs : w.Settable) : (setBlocking fd false w).2.Quiet fd := by
  intro k' hk'
  cases hk : w.socks fd with
  | none =>
    have hsame : (setBlocking fd false w).2 = w := by
      simp [setBlocking, netFcntlGet, hk, EBADF]
    rw [hsame, hk] at hk'
    contradiction
  | some k =>
    rw [setBlocking_set hs hk] at hk'
    obtain rfl := Option.some.inj hk'
    simp [Sock.blocking]

theorem sendExact_quiet (buf : Str) (hs : w.Settable) : (sendExact fd buf w).2.Quiet fd := by
  let a := (setBlocking fd true w).2
  let b := (Prog.iterate (buf.length + 2) (transferStep fd netWrite) (fun _ => 0) buf a).2
  have ha : Aside fd w a := setBlocking_keeps aside_sends rfl true w
  have hb : Aside fd a b := Keeps.iterate aside_frame
    (transferStep_keeps aside_sends (netWrite_keeps aside_sends rfl)) _ buf a
  have hrun : (sendExact fd buf w).2 = (setBlocking fd false b).2 := rfl
  rw [hrun]
  exact setBlocking_quiet ((ha.drawn.trans hb.drawn).settable hs)

theorem sendExact_calms (fd : Int) (buf : Str) : Keeps (KeepsCalm T) (sendExact fd buf) :=
  fun w hs => (sendExact_keeps aside_sends rfl buf w).calms (sendExact_quiet buf hs)

theorem netClose_aside (fd : Int) : Keeps (Aside fd) (netClose fd) := by
  intro w
  refine ⟨.refl w.answers, fun x hx => ?_, [.closed fd ((w.socks fd).map Sock.id)], rfl, ?_⟩
  · simp [netClose, World.record, World.setSock, hx]
  · simp

theorem netClose_quiet (fd : Int) (w : World) : (netClose fd w).2.Quiet fd := by
  intro k hk
  simp [netClose, World.record, World.setSock] at hk

theorem netClose_calms (fd : Int) : Keeps (Calms T) (netClose fd) := fun w =>
  (netClose_aside fd w).calms (netClose_quiet fd w)

theorem netCloseBlocking_calms (fd : Int) : Keeps (Calms T) (netCloseBlocking fd) := fun w =>
  (aside_frame.trans (setBlocking_keeps aside_sends rfl true w) (netClose_aside fd _)).calms
    (netClose_quiet fd _)

/-! ## New sockets -/

theorem opened_aside (w : World) (fd : Int) : Aside fd w (w.openedSock fd) where
  drawn := .refl w.answers
  others x hx := by simp [openedSock_socks, hx]
  calls := ⟨[.opened fd w.nextSock], rfl, by simp⟩

theorem opened_calms (hs : w.Settable) (fd : Int) :
    Calms T w (setBlocking fd false (w.openedSock fd)).2 := by
  have hopen := opened_aside w fd
  have hset : Aside fd (w.openedSock fd) (setBlocking fd false (w.openedSock fd)).2 :=
    setBlocking_keeps aside_sends rfl false _
  exact (aside_frame.trans hopen hset).calms (setBlocking_quiet (hopen.drawn.settable hs))

theorem calms_lookups : Lookups (Calms T) where
  toFrame := calms_frame
  answers _ _ ha := .of_same ha rfl (.of_eq rfl)
  errno w _ := .of_same (.refl w.answers) rfl (.of_eq rfl)

theorem popNet_calms : Keeps (Calms T) popNet := popNet_keeps calms_frame calms_lookups.answers

theorem setSock_calms {k k' : Sock} (hq : w.Quiet fd) (hk : w.socks fd = some k)
    (he : k'.flags = k.flags) : Calms T w (w.setSock fd (some k')) := by
  refine (Aside.of_setSock w fd _).calms fun x hx => ?_
  obtain rfl : k' = x := by simpa [World.setSock] using hx
  have hb := hq k hk
  rwa [Sock.blocking, he]

theorem netBind_calms (port : Nat) (hq : w.Quiet fd) : Calms T w (netBind fd port w).2 := by
  have hpop : Calms T w (popNet w).2 := popNet_calms w
  simp only [netBind, bind_run, ite_run, pure_run, modify_run]
  split
  · exact hpop
  · split
    · exact hpop
    · rename_i k hk
      exact calms_frame.trans hpop (setSock_calms (hpop.quiet hq) hk rfl)

theorem netListen_calms (hq : w.Quiet fd) : Calms T w (netListen fd w).2 := by
  have hpop : Calms T w (popNet w).2 := popNet_calms w
  simp only [netListen, bind_run, ite_run, pure_run, modify_run]
  split
  · exact hpop
  · split
    · exact hpop
    · rename_i k hk
      exact calms_frame.trans hpop (setSock_calms (hpop.quiet hq) hk rfl)

/-! ## Calls that wait -/

theorem waitOn_calms (hT : fd ∈ T) : Keeps (Calms T) (waitOn fd) := by
  intro w
  unfold waitOn
  split
  · exact calms_frame.refl w
  · rename_i k hk
    refine ⟨.refl w.answers, fun _ _ hx _ => hx, .record fun x he => ?_⟩
    obtain ⟨rfl, hb⟩ := Call.waits.inj he
    refine ⟨hT, fun hq => ?_⟩
    rw [hq k hk] at hb
    contradiction

theorem netRead_calms (hT : fd ∈ T) (len : Nat) : Keeps (Calms T) (netRead fd len) := by
  have hF : Frame (Calms T) := calms_frame
  refine .bind hF (waitOn_calms hT) fun o => ?_
  cases o with
  | none => exact .pure hF _
  | some k =>
    refine .bind hF popNet_calms fun a => .ite (.pure hF _) (.bind hF (fun w => ?_) fun _ => .pure hF _)
    exact .of_same (.refl w.answers) rfl (.of_eq rfl)

theorem netConnect_calms (hT : fd ∈ T) (addr : SockAddr) : Keeps (Calms T) (netConnect fd addr) := by
  have hF : Frame (Calms T) := calms_frame
  refine .bind hF (waitOn_calms hT) fun o => ?_
  cases o with
  | none => exact .pure hF _
  | some k =>
    refine .bind hF (fun w => ?_) fun _ => .bind hF popNet_calms fun a => .pure hF _
    exact .of_same (.refl w.answers) rfl (.record fun _ _ => Call.noConfusion)

/-! ## Files and devices -/

theorem calms_streams : UsesStreams (Calms T) where
  toFrame := calms_frame
  answers := calms_lookups.answers
  errno := calms_lookups.errno
  disk w _ := .of_same (.refl w.answers) rfl (.of_eq rfl)
  renamed w _ _ := .of_same (.refl w.answers) rfl (.record fun _ _ => Call.noConfusion)
  opened w _ := .of_same (.refl w.answers) rfl (.of_eq rfl)
  stream w _ _ _ _ _ := .of_same (.refl w.answers) rfl (.of_eq rfl)
  close w _ _ _ := .of_same (.refl w.answers) rfl (.of_eq rfl)

theorem calms_devices : UsesDevices (Calms T) where
  toFrame := calms_frame
  answers := calms_lookups.answers
  devices w _ := .of_same (.refl w.answers) rfl (.of_eq rfl)

theorem keepsCalm_streams : UsesStreams (KeepsCalm T) :=
  calms_streams.imp keepsCalm_frame fun _ _ h _ => h

theorem keepsCalm_devices : UsesDevices (KeepsCalm T) :=
  calms_devices.imp keepsCalm_frame fun _ _ h _ => h

/-! ## Handlers -/

theorem os_calms {α : Type} {m : Os α} (hm : Keeps (Calms T) m) :
    Keeps (OnWorld (KeepsCalm T)) (os m) := fun s _ => hm s.world

theorem calms_emit (s : Session) (e : Event) :
    OnWorld (KeepsCalm T) s { s with world := s.world.emit s.client.conn e } := fun _ =>
  .of_same (.refl s.world.answers) rfl (.of_eq rfl)

theorem calms_replies : Replies (OnWorld (KeepsCalm T)) where
  toFrame := OnWorld.frame keepsCalm_frame
  say code msg s hs := by
    have hsend : Calms T s.world (sendExact s.client.socket (replyText code msg) s.world).2 :=
      sendExact_calms _ _ _ hs
    exact calms_frame.trans hsend (.of_same (.refl _) rfl (.of_eq rfl))

theorem calms_releases : Releases (OnWorld (KeepsCalm T)) where
  toFrame := OnWorld.frame keepsCalm_frame
  close fd := os_calms (netCloseBlocking_calms fd)
  streams _ := keepsCalm_streams.toClosing
  data s _ _ _ _ _ _ := keepsCalm_frame.refl s.world

theorem closePassiveSocket_calms : Keeps (OnWorld (KeepsCalm T)) closePassiveSocket :=
  closePassiveSocket_closes (OnWorld.frame keepsCalm_frame) calms_releases.close fun s _ =>
    keepsCalm_frame.refl s.world

theorem prepareDataConnectionActive_calms :
    Keeps (OnWorld (KeepsCalm T)) prepareDataConnectionActive := by
  intro s hs
  rw [prepareDataConnectionActive_run]
  simp only
  rcases netSocket_obtains calms_frame calms_lookups.answers s.world with
    ⟨hneg, hw⟩ | ⟨hpos, -, v, hv, -, ho⟩
  · rw [if_pos hneg]
    exact hw
  · rw [if_neg (not_lt.mpr hpos), ho]
    generalize (netSocket s.world).1 = fd
    have hvs := hv.drawn.settable hs
    have hopen : Calms T v (setBlocking fd false (v.openedSock fd)).2 := opened_calms hvs fd
    have hquiet : (setBlocking fd false (v.openedSock fd)).2.Quiet fd :=
      setBlocking_quiet ((opened_aside v fd).drawn.settable hvs)
    have hbind := netBind_calms (T := T) SRC_PORT hquiet
    have hall := calms_frame.trans hv (calms_frame.trans hopen hbind)
    split
    · exact calms_frame.trans hall (netClose_calms fd _)
    · exact hall

theorem prepareDataConnection_calms (callback : Callback) (arg : Nat) (cleanup : Cleanup) :
    Keeps (OnWorld (KeepsCalm T)) (prepareDataConnection callback arg cleanup) := by
  have hF : Frame (OnWorld (KeepsCalm T)) := OnWorld.frame keepsCalm_frame
  have hupdate : ∀ f, Keeps (OnWorld (KeepsCalm T)) (update f) := fun f s =>
    keepsCalm_frame.refl s.world
  refine .bind hF (writeReply_keeps calms_replies _ _) fun _ => .ite (.pure hF _) <|
    .bind hF (.gets hF _) fun c => .bind hF (.ite ?_ prepareDataConnectionActive_calms) fun _ => ?_
  · exact .bind hF (hupdate _) fun _ => .pure hF _
  · refine .ite (.bind hF (fun s => calms_emit s _) fun _ => transferError_keeps calms_replies) ?_
    exact .bind hF (os_calms (gettime_keeps calms_frame calms_lookups.answers)) fun _ =>
      .bind hF (hupdate _) fun _ => .pure hF _

/-- The socket that PASV obtained is set to non-blocking mode before anything else is done with
it. -/
theorem listenPassive_calms {v : World} (hs : v.Settable) (c : Client) (fd : Int) :
    Calms T v (listenPassive fd ⟨c, v.openedSock fd⟩).2.world := by
  let b := (setBlocking fd false (v.openedSock fd)).2
  have hb : Calms T v b := opened_calms hs fd
  have hquiet : b.Quiet fd := setBlocking_quiet ((opened_aside v fd).drawn.settable hs)
  let p := (nextPassivePort b).2
  have hp : Calms T b p := .of_same (.refl b.answers) rfl (.of_eq rfl)
  let n := netBind fd (nextPassivePort b).1 p
  have hn : Calms T p n.2 := netBind_calms _ (hp.quiet hquiet)
  let l := netListen fd n.2
  have hl : Calms T n.2 l.2 := netListen_calms (hn.quiet (hp.quiet hquiet))
  have hF : Frame (OnWorld (KeepsCalm T)) := OnWorld.frame keepsCalm_frame
  have hreply := fun code msg => writeReply_keeps (calms_replies (T := T)) code msg
  have hbound := calms_frame.trans hb (calms_frame.trans hp hn)
  have hclose : ∀ msg w, Calms T v w → Calms T v ((do
      closePassiveSocket
      writeReply 520 msg : Ses Int) ⟨c, w⟩).2.world := fun msg w hw => by
    have hend := Keeps.bind hF closePassiveSocket_calms (fun _ => hreply 520 msg) ⟨c, w⟩
    exact calms_frame.trans hw (hend (hw.drawn.settable hs))
  have hrun : listenPassive fd ⟨c, v.openedSock fd⟩ =
      if n.1 < 0 then (do
        closePassiveSocket
        writeReply 520 "Unable to bind listening socket.".toList : Ses Int) ⟨c, n.2⟩
      else if l.1 < 0 then (do
        closePassiveSocket
        writeReply 520 "Unable to listen on socket.".toList : Ses Int) ⟨c, l.2⟩
      else writeReply 227 (passiveReply (netGethostip l.2).1 (nextPassivePort b).1)
        ⟨c, (netGethostip l.2).2⟩ := by
    simp +instances only [listenPassive, bind_run, os_run, ite_run]
    rfl
  rw [hrun]
  split
  · exact hclose _ _ hbound
  · split
    · exact hclose _ _ (calms_frame.trans hbound hl)
    · have hip : Calms T l.2 (netGethostip l.2).2 :=
        netGethostip_keeps calms_frame calms_lookups.answers l.2
      have hall := calms_frame.trans hbound (calms_frame.trans hl hip)
      exact calms_frame.trans hall (hreply _ _ ⟨c, _⟩ (hall.drawn.settable hs))

theorem ftpPasv_calms (rest : Str) : Keeps (OnWorld (KeepsCalm T)) (ftpPasv rest) := by
  intro s hs
  let u := (closePassiveSocket s).2
  let r := netSocket u.world
  let t : Session := ⟨{ u.client with passiveSocket := r.1 }, r.2⟩
  have hu : Calms T s.world u.world := closePassiveSocket_calms s hs
  have hus := hu.drawn.settable hs
  rw [ftpPasv_run]
  refine calms_frame.trans hu ?_
  simp only
  rcases netSocket_obtains (calms_frame (T := T)) calms_lookups.answers u.world with
    ⟨hneg, hw⟩ | ⟨hpos, -, v, hv, -, ho⟩
  · rw [if_pos hneg]
    have hreply : Calms T t.world
        (writeReply 520 "Unable to create listening socket.".toList t).2.world :=
      writeReply_keeps calms_replies _ _ t (hw.drawn.settable hus)
    exact calms_frame.trans hw hreply
  · rw [if_neg (not_lt.mpr hpos), ho]
    exact calms_frame.trans hv (listenPassive_calms (hv.drawn.settable hus) _ _)

theorem calms_setup : SetupUse (OnWorld (KeepsCalm T)) where
  toReplies := calms_replies
  streams _ := keepsCalm_streams
  devices _ := keepsCalm_devices.mounts
  statics s _ _ _ _ _ := .of_same (.refl s.world.answers) rfl (.of_eq rfl)
  type s _ := keepsCalm_frame.refl s.world
  pending s _ := keepsCalm_frame.refl s.world
  auth s := keepsCalm_frame.refl s.world
  cwd s _ := keepsCalm_frame.refl s.world
  marker s _ := keepsCalm_frame.refl s.world
  prepare := prepareDataConnection_calms
  pasv := ftpPasv_calms
  port portspec := ftpPort_closes calms_replies closePassiveSocket_calms
    (fun s _ => keepsCalm_frame.refl s.world) portspec
  rein rest := ftpRein_closes calms_replies closePassiveSocket_calms
    (fun s => keepsCalm_frame.refl s.world) rest

theorem processCommand_calms (cmdLine : Str) : Keeps (OnWorld (KeepsCalm T)) (processCommand cmdLine) :=
  calms_setup.command (fun s _ _ => calms_emit s _) cmdLine

end Modes

/-! ## Turns -/

/-- The control socket stays, and only calls on it waited in blocking mode. -/
structure Attends (s s' : Session) : Prop where
  socket : s'.client.socket = s.client.socket
  world : KeepsCalm {s.client.socket} s.world s'.world

theorem attends_frame : Frame Attends where
  refl s := ⟨rfl, keepsCalm_frame.refl s.world⟩
  trans h h' := ⟨h'.socket.trans h.socket, keepsCalm_frame.trans h.world (h.socket ▸ h'.world)⟩

theorem attends_reads : ReadsLines Attends where
  toFrame := attends_frame
  heard s len := by
    refine ⟨rfl, fun _ => ?_⟩
    have hread : Calms {s.client.socket} s.world (netRead s.client.socket len s.world).2 :=
      netRead_calms (Set.mem_singleton _) len s.world
    exact calms_frame.trans hread (.of_same (.refl _) rfl (.of_eq rfl))
  event s e _ := ⟨rfl, calms_emit s e⟩
  buffer s _ _ := ⟨rfl, keepsCalm_frame.refl s.world⟩
  command cmdLine s _ := ⟨(processCommand_apart cmdLine s).socket, processCommand_calms cmdLine s⟩

/-- The data socket of a connection that was accepted on the passive socket. -/
def Client.Receives (c : Client) (fd : Int) : Prop :=
  0 ≤ fd ∧ fd = c.dataSocket ∧ c.dataConnectionConnected = true ∧ 0 ≤ c.passiveSocket

/-- The sockets on which a turn of the client makes calls that may wait. -/
def Client.polls (c : Client) : Set Int :=
  {fd | (c.dataCallback = none ∧ fd = c.socket) ∨
    (c.dataCallback ≠ none ∧ c.dataConnectionConnected = false ∧
      (0 ≤ c.passiveSocket ∧ fd = c.passiveSocket ∨ c.passiveSocket < 0 ∧ fd = c.dataSocket)) ∨
    (c.dataCallback = some .recvToFile ∧ c.dataConnectionConnected = true ∧ fd = c.dataSocket)}

/-- The sockets in blocking mode are the one the client receives on, and others of the rest. -/
def Session.Tuned (rest : Set Int) (s : Session) : Prop :=
  ∀ fd, ¬ s.world.Quiet fd → s.client.Receives fd ∨ fd ∈ rest

section Turns

variable {T rest : Set Int}

theorem Session.Tuned.calm {s s' : Session} (h : s.Tuned rest) (hw : Calms T s.world s'.world)
    (hc : ∀ fd, s.client.Receives fd → s'.client.Receives fd) : s'.Tuned rest := by
  intro fd hq
  have hold : ¬ s.world.Quiet fd := fun hquiet => hq (hw.quiet hquiet)
  exact (h fd hold).imp_left (hc fd)

theorem controlEvents_calms {s : Session} (hs : s.world.Settable) :
    Calms {s.client.socket} s.world (controlEvents s).2.world :=
  (controlEvents_keeps attends_reads s).world hs

theorem runCallback_calms (callback : Callback) (fd : Int) (arg : Nat)
    (hT : callback = .recvToFile → fd ∈ T) :
    Keeps (KeepsCalm T) (runCallback callback fd arg) := by
  have hcarries : Carries callback fd (KeepsCalm T) :=
    { toFrame := keepsCalm_frame
      send := sendExact_calms fd
      shrink := fun w _ => .of_same (.refl w.answers) rfl (.of_eq rfl)
      read := fun hcb len w _ => netRead_calms (hT hcb) len w }
  exact runCallback_keeps hcarries keepsCalm_streams.toStreaming trivial

/-- What a call for a transfer leaves: the client as it was, or with the connection made. -/
inductive Stepped (s : Session) : Session → Prop where
  | same {w : World} (calm : Calms s.client.polls s.world w) : Stepped s ⟨s.client, w⟩
  | connected {w : World} (calm : Calms s.client.polls s.world w)
      (before : s.client.dataConnectionConnected = false) (fd : Int) :
      Stepped s ⟨s.client.joined fd, w⟩
  | accepted {w : World} (calm : Calms s.client.polls s.world w)
      (before : s.client.dataConnectionConnected = false) (passive : 0 ≤ s.client.passiveSocket)
      {fd : Int} (valid : 0 ≤ fd) : Stepped s ⟨s.client.joined fd, w.openedSock fd⟩

theorem timed_stepped {s : Session} {w : World} (hw : Calms s.client.polls s.world w) (result : Int) :
    Stepped s (timed result ⟨s.client, w⟩).2 :=
  .same (calms_frame.trans hw (gettime_keeps calms_frame calms_lookups.answers w))

theorem dataStep_stepped {s : Session} (hs : s.world.Settable) (hcb : s.client.dataCallback ≠ none) :
    Stepped s (dataStep s).2 := by
  by_cases hc : s.client.dataConnectionConnected = true
  · have hrun : dataStep s = driveTransfer s := by
      simp only [dataStep, bind_run, client_run, hc, if_true]
    rw [hrun]
    simp only [driveTransfer, bind_run, client_run]
    cases hcallback : s.client.dataCallback with
    | none => exact absurd hcallback hcb
    | some callback =>
      cases s.client.dataConnectionCallbackArg with
      | none => exact .same (calms_frame.refl s.world)
      | some arg =>
        refine .same (runCallback_calms callback _ arg (fun he => ?_) s.world hs)
        exact .inr (.inr ⟨hcallback.trans (congrArg some he), hc, rfl⟩)
  · have hc' : s.client.dataConnectionConnected = false := by simpa using hc
    have hrun : dataStep s = awaitDataConnection s := by
      simp only [dataStep, bind_run, client_run, hc', Bool.false_eq_true, if_false]
    rw [hrun, awaitDataConnection_run hc']
    simp only
    split
    · rename_i hp
      have hpoll : s.client.passiveSocket ∈ s.client.polls := .inr (.inl ⟨hcb, hc', .inl ⟨hp, rfl⟩⟩)
      rcases netAccept_obtains calms_frame calms_lookups.answers (waitOn_calms hpoll) s.world with
        ⟨hneg, hw⟩ | ⟨hfd, -, v, hv, -, ho⟩
      · rw [if_neg (not_le.mpr hneg)]
        exact timed_stepped hw _
      · rw [if_pos hfd]
        generalize (netAccept s.client.passiveSocket s.world).1.1 = fd at hfd ho ⊢
        rw [ho]
        exact .accepted hv hc' hp hfd
    · rename_i hp
      have hpoll : s.client.dataSocket ∈ s.client.polls :=
        .inr (.inl ⟨hcb, hc', .inr ⟨not_le.mp hp, rfl⟩⟩)
      have hw := netConnect_calms hpoll s.client.address s.world
      split
      · exact .connected hw hc' _
      · exact timed_stepped hw _

theorem cleanupDataResources_quiet {s : Session} (hs : s.world.Settable)
    (hpos : 0 ≤ s.client.dataSocket) (hne : s.client.dataSocket ≠ s.client.passiveSocket) :
    (cleanupDataResources s).2.world.Quiet s.client.dataSocket := by
  let u : Session := (closeDataSocket s).2
  have hu : Calms ∅ s.world u.world := closeDataSocket_keeps calms_releases s hs
  have hquiet : u.world.Quiet s.client.dataSocket := by
    have hrun : u.world = (netCloseBlocking s.client.dataSocket s.world).2 := by
      simp +instances only [u, closeDataSocket, bind_run, client_run, ite_run, os_run,
        if_pos (And.intro hpos hne)]
    rw [hrun]
    exact netClose_quiet _ _
  have hrest : Calms ∅ u.world (cleanupDataResources s).2.world :=
    runClientCleanup_keeps calms_releases ⟨{ u.client with
      dataSocket := -1, dataConnectionConnected := false, dataCallback := none }, u.world⟩
      (hu.drawn.settable hs)
  exact hrest.quiet hquiet

theorem Client.Receives.apart {c : Client} {fd : Int} (h : c.Receives fd) (hc : c.Sound) :
    0 ≤ c.dataSocket ∧ c.dataSocket ≠ c.passiveSocket := by
  obtain ⟨hpos, rfl, hconnected, -⟩ := h
  refine ⟨hpos, fun he => ?_⟩
  obtain ⟨-, hwaiting, -⟩ := (hc.shared hpos).mp he
  rw [hconnected] at hwaiting
  contradiction

/-- A turn leaves outcomes to come, the modes in order, and waited only where it may. -/
structure Heeds (rest : Set Int) (s s' : Session) : Prop where
  drawn : s.world.answers.Drawn s'.world.answers
  tuned : s'.Tuned rest
  calls : Adds (s.world.Allows s.client.polls) s.world s'.world

theorem Stepped.heeds {s s' : Session} (h : Stepped s s') (ht : s.Tuned rest) :
    Heeds rest s s' := by
  cases h with
  | same calm => exact ⟨calm.drawn, ht.calm calm fun _ => id, calm.calls⟩
  | connected calm before fd =>
    refine ⟨calm.drawn, ht.calm calm fun x hx => ?_, calm.calls⟩
    rw [Client.Receives, before] at hx
    exact absurd hx.2.2.1 (by decide)
  | @accepted w calm before passive fd valid =>
    have hopen := opened_aside w fd
    refine ⟨calm.drawn, fun x hx => ?_, calm.calls.trans (hopen.calls.mono fun _ hc x he => ?_)⟩
    · by_cases hxfd : x = fd
      · exact .inl ⟨hxfd ▸ valid, hxfd, rfl, passive⟩
      · have hold : ¬ s.world.Quiet x := fun hquiet => hx fun k hk => by
          rw [hopen.others x hxfd] at hk
          exact calm.quiet hquiet k hk
        refine (ht x hold).imp_left fun hr => ?_
        rw [Client.Receives, before] at hr
        exact absurd hr.2.2.1 (by decide)
    · exact absurd he (hc x true)

/-- What gives up the transfer leaves none of the client's sockets in blocking mode. -/
theorem cleanupDataResources_tuned {s : Session} (hs : s.world.Settable) (hc : s.client.Sound)
    (ht : s.Tuned rest) {fd : Int} (hq : ¬ (cleanupDataResources s).2.world.Quiet fd) :
    fd ∈ rest := by
  have hcalm : Calms ∅ s.world (cleanupDataResources s).2.world :=
    cleanupDataResources_keeps calms_releases s hs
  refine (ht fd fun hquiet => hq (hcalm.quiet hquiet)).resolve_left fun hr => hq ?_
  obtain ⟨hpos, hne⟩ := hr.apart hc
  obtain ⟨-, rfl, -⟩ := hr
  exact cleanupDataResources_quiet hs hpos hne

theorem closeSockets_tuned {s : Session} (hs : s.world.Settable) (hc : s.client.Sound)
    (ht : s.Tuned rest) :
    Calms ∅ s.world (closeSockets s).2.world ∧
      ∀ fd, ¬ (closeSockets s).2.world.Quiet fd → fd ∈ rest := by
  have hall : Calms ∅ s.world (closeSockets s).2.world :=
    closeSockets_keeps calms_releases (fun s _ => keepsCalm_frame.refl s.world) s hs
  let t : Session := ⟨s.client, (netCloseBlocking s.client.socket s.world).2⟩
  have hclose : Calms ∅ s.world t.world := netCloseBlocking_calms _ _
  have hts := hclose.drawn.settable hs
  let u : Session := (cleanupDataResources t).2
  have hu : Calms ∅ t.world u.world := cleanupDataResources_keeps calms_releases t hts
  have hend : Calms ∅ u.world (closeSockets s).2.world :=
    closePassiveSocket_calms u (hu.drawn.settable hts)
  refine ⟨hall, fun fd hq => ?_⟩
  exact cleanupDataResources_tuned hts hc (ht.calm hclose fun _ => id)
    fun hquiet => hq (hend.quiet hquiet)

theorem dataEvents_heeds {others : Set Int} {s : Session} (hsole : s.Sole others)
    (hcb : s.client.dataCallback ≠ none) (hs : s.world.Settable) (ht : s.Tuned rest) :
    Heeds rest s (dataEvents s).2 := by
  have hstep := (dataStep_stepped hs hcb).heeds ht
  have hsole' := dataStep_sole hsole hcb
  rw [dataEvents_run]
  simp only
  generalize dataStep s = r at hstep hsole' ⊢
  split
  · have hrs := hstep.drawn.settable hs
    let u := (cleanupDataResources r.2).2
    have hu : Calms ∅ r.2.world u.world := cleanupDataResources_keeps calms_releases r.2 hrs
    let v := (transferDone r.1 u).2
    have hdone : Keeps (OnWorld (KeepsCalm ∅)) (transferDone r.1) :=
      .ite (transferError_keeps calms_replies) (writeReply_keeps calms_replies _ _)
    have hv : Calms ∅ u.world v.world := hdone u (hu.drawn.settable hrs)
    have hcalm := calms_frame.trans hu hv
    refine ⟨hstep.drawn.trans hcalm.drawn, fun fd hq => .inr ?_, hstep.calls.trans <|
      hcalm.calls.mono fun _ hc x he => absurd (hc x he).1 (Set.notMem_empty x)⟩
    exact cleanupDataResources_tuned hrs hsole'.sound hstep.tuned
      fun hquiet => hq (hv.quiet hquiet)
  · exact hstep

theorem turn_heeds {others : Set Int} {c : Client} {w : World} (hsole : Session.Sole others ⟨c, w⟩)
    (hs : w.Settable) (ht : Session.Tuned rest ⟨c, w⟩) :
    Heeds rest ⟨c, w⟩ (turn c ⟨c, w⟩).2 := by
  unfold turn
  rw [ite_run]
  split
  · rename_i hcb
    exact dataEvents_heeds hsole (Option.isSome_iff_ne_none.mp hcb) hs ht
  · rename_i hcb
    have hnone : c.dataCallback = none := by simpa using hcb
    have hcalm : Calms {c.socket} w (controlEvents ⟨c, w⟩).2.world :=
      controlEvents_calms (s := ⟨c, w⟩) hs
    have hpolls : {c.socket} ⊆ c.polls := fun fd hfd => .inl ⟨hnone, hfd⟩
    have hidle := (hsole.sound.idle hnone).1
    refine ⟨hcalm.drawn, ht.calm hcalm fun fd hr => ?_, (hcalm.mono hpolls).calls⟩
    obtain ⟨hpos, rfl, -⟩ := hr
    rw [hidle] at hpos
    contradiction

end Turns

/-! ## The system -/

def Server.receiving (s : Server) (p : Nat) : Set Int :=
  {fd | ∃ q c, q ≠ p ∧ s.heap q = some c ∧ c.Receives fd}

/-- Every socket in blocking mode is the one some client receives on. -/
def Server.Tuned (s : Server) : Prop :=
  ∀ fd, ¬ s.world.Quiet fd → ∃ p c, s.heap p = some c ∧ c.Receives fd

/-- An upload in this slot reads a connection that was accepted. -/
def Server.Uploads (s : Server) (i : Fin MAX_CLIENTS) (fd : Int) : Prop :=
  ∃ p c, s.clients i = some p ∧ s.heap p = some c ∧ c.dataCallback = some .recvToFile ∧
    c.Receives fd

def Label.Settable (l : Label) : Prop := ∀ answers, l = .env answers → ∀ r ∈ answers.fcntls, 0 ≤ r

def Call.Free (c : Call) : Prop := ∀ fd, c ≠ .waits fd true

/-- A part of a step leaves outcomes to come, the modes in order and only these calls. -/
structure Minds (Q : Call → Prop) (s s' : Server) : Prop where
  drawn : s.world.answers.Drawn s'.world.answers
  tuned : s'.Tuned
  calls : Adds Q s.world s'.world

section Minds

variable {Q : Call → Prop} {T bound : Set Int} {s s' : Server}

theorem Minds.trans {s'' : Server} (h : Minds Q s s') (h' : Minds Q s' s'') : Minds Q s s'' :=
  ⟨h.drawn.trans h'.drawn, h'.tuned, h.calls.trans h'.calls⟩

theorem Server.Tuned.minds (h : s.Tuned) (hw : Calms T s.world s'.world)
    (hT : ∀ fd ∈ T, s.world.Quiet fd)
    (hheap : ∀ p c, s.heap p = some c → s'.heap p = some c) : Minds Call.Free s s' := by
  refine ⟨hw.drawn, fun fd hq => ?_, hw.calls.mono fun c hc fd he => ?_⟩
  · obtain ⟨p, c, hp, hr⟩ := h fd fun hquiet => hq (hw.quiet hquiet)
    exact ⟨p, c, hheap p c hp, hr⟩
  · obtain ⟨hmem, hnot⟩ := hc fd he
    exact hnot (hT fd hmem)

theorem Server.Tuned.sys {α : Type} {m : Os α} (h : s.Tuned) (hm : Keeps (Calms ∅) m) :
    Minds Call.Free s (sys m s).2 :=
  h.minds (hm s.world) (fun fd hfd => absurd hfd (Set.notMem_empty fd)) fun _ _ => id

theorem Server.Tuned.listener (h : s.Tuned) {server : Int} (hs : s.Shares (listenerAt server)) :
    s.world.Quiet server := by
  by_contra hq
  obtain ⟨p, c, hp, hpos, hfd, -⟩ := h _ hq
  have hmine : server ∈ s.holders (listenerAt server) (some p) := ⟨c, hp, hpos, .inr (.inr hfd)⟩
  have hlistener : server ∈ s.holders (listenerAt server) none := ⟨hpos, rfl⟩
  exact absurd (hs.owned.once server none (some p) hlistener hmine) (by simp)

/-- A client's own sockets but the one it receives on are in non-blocking mode. -/
theorem Server.Tuned.own (h : s.Tuned) (hs : s.Shares bound) {p : Nat} {c : Client}
    (hp : s.heap p = some c) {fd : Int} (hfd : fd ∈ c.numbers) (hq : ¬ s.world.Quiet fd) :
    c.Receives fd := by
  obtain ⟨q, d, hd, hr⟩ := h fd hq
  have hmine : fd ∈ s.holders bound (some p) := ⟨c, hp, hfd⟩
  have hits : fd ∈ s.holders bound (some q) := ⟨d, hd, hr.1, .inr (.inr hr.2.1)⟩
  obtain rfl : p = q := Option.some.inj (hs.owned.once fd (some p) (some q) hmine hits)
  obtain rfl : c = d := Option.some.inj (hp.symm.trans hd)
  exact hr

theorem Server.Tuned.session (h : s.Tuned) {p : Nat} {c : Client} (hp : s.heap p = some c) :
    Session.Tuned (s.receiving p) ⟨c, s.world⟩ := by
  intro fd hq
  obtain ⟨q, d, hd, hr⟩ := h fd hq
  by_cases hqp : q = p
  · subst hqp
    obtain rfl : c = d := Option.some.inj (hp.symm.trans hd)
    exact .inl hr
  · exact .inr ⟨q, d, hqp, hd, hr⟩

theorem Session.Tuned.server {t : Session} {p : Nat} (h : t.Tuned (s.receiving p)) :
    (s.withSession p t).Tuned := by
  intro fd hq
  rcases h fd hq with hr | ⟨q, d, hqp, hd, hr⟩
  · exact ⟨p, t.client, by simp [Server.withSession], hr⟩
  · exact ⟨q, d, by simpa [Server.withSession, hqp] using hd, hr⟩

theorem tuned_without {t : Session} {p : Nat} {w : World} (i : Fin MAX_CLIENTS)
    (h : ∀ fd, ¬ w.Quiet fd → fd ∈ s.receiving p) : ((s.withSession p t).without i p w).Tuned := by
  intro fd hq
  obtain ⟨q, d, hqp, hd, hr⟩ := h fd hq
  exact ⟨q, d, by simpa [Server.without, Server.withSession, hqp] using hd, hr⟩

/-- The calls of a turn that wait in blocking mode are those of an upload. -/
theorem Server.Tuned.allows (h : s.Tuned) (hs : s.Shares bound) {i : Fin MAX_CLIENTS} {p : Nat}
    {c : Client} (hi : s.clients i = some p) (hp : s.heap p = some c) {call : Call}
    (hc : s.world.Allows c.polls call) {fd : Int} (he : call = .waits fd true) : s.Uploads i fd := by
  obtain ⟨hpoll, hq⟩ := hc fd he
  have hsound := hs.sound p c hp
  have hr : ∀ x, 0 ≤ x → (x = c.socket ∨ x = c.passiveSocket ∨ x = c.dataSocket) → fd = x →
      c.Receives fd := fun x hx hmem hfd => h.own hs hp (hfd ▸ ⟨hx, hmem⟩) hq
  rcases hpoll with ⟨-, hfd⟩ | ⟨hcb, hwaiting, ⟨hpos, hfd⟩ | ⟨-, hfd⟩⟩ | ⟨hcb, -, hfd⟩
  · obtain ⟨-, hdata, -⟩ := hr _ hsound.socket (.inl rfl) hfd
    exact absurd (hdata.symm.trans hfd) hsound.data
  · obtain ⟨-, -, hconnected, -⟩ := hr _ hpos (.inr (.inl rfl)) hfd
    rw [hwaiting] at hconnected
    contradiction
  · obtain ⟨-, -, hconnected, -⟩ := hr _ (hsound.busy hcb).1 (.inr (.inr rfl)) hfd
    rw [hwaiting] at hconnected
    contradiction
  · have hbusy := hsound.busy (by simp [hcb])
    exact ⟨p, c, hi, hp, hcb, hr _ hbusy.1 (.inr (.inr rfl)) hfd⟩

theorem processSlot_minds (h : s.Tuned) (hwf : WellFormed s) (hs : s.Shares bound)
    (hset : s.world.Settable) (i : Fin MAX_CLIENTS) :
    Minds (fun c => ∀ fd, c = .waits fd true → s.Uploads i fd) s (processSlot i s).2 := by
  rcases processSlot_cases hwf i with ⟨-, he⟩ | ⟨p, c, hi, hp, hturn⟩
  · rw [he]
    exact ⟨.refl _, h, .of_eq rfl⟩
  have hsole := hs.sole hp
  have hheeds := turn_heeds hsole hset (h.session hp)
  have hsound := (turn_sole c s.world hsole).sound
  generalize turn c ⟨c, s.world⟩ = r at hturn hheeds hsound
  have hcalls : Adds (fun call => ∀ fd, call = .waits fd true → s.Uploads i fd) s.world r.2.world :=
    hheeds.calls.mono fun call hc fd => h.allows hs hi hp hc
  rcases hturn with ⟨-, he⟩ | ⟨-, he⟩
  · rw [he]
    exact ⟨hheeds.drawn, hheeds.tuned.server, hcalls⟩
  · obtain ⟨hcalm, hleft⟩ := closeSockets_tuned (hheeds.drawn.settable hset) hsound hheeds.tuned
    rw [he]
    refine ⟨hheeds.drawn.trans hcalm.drawn, tuned_without i hleft, hcalls.trans <|
      hcalm.calls.mono fun call hc fd he => absurd (hc fd he).1 (Set.notMem_empty fd)⟩

theorem Calms.opened {w w' v : World} {fd : Int} (h : Calms ∅ (w.openedSock fd) w')
    (ha : Aside fd w' v) (hq : v.Quiet fd) : Calms T w v := by
  have hopen := opened_aside w fd
  refine ⟨(hopen.drawn.trans h.drawn).trans ha.drawn, fun x k hk hb => ?_, ?_⟩
  · by_cases hx : x = fd
    · subst hx
      have hoff := hq k hk
      rw [hb] at hoff
      contradiction
    · rw [ha.others x hx] at hk
      have hold := h.modes x k hk hb
      rwa [hopen.others x hx] at hold
  · refine (hopen.calls.mono ?_).trans ((h.calls.mono ?_).trans (ha.calls.mono ?_))
    · exact fun _ hc x he => absurd he (hc x true)
    · exact fun _ hc x he => absurd (hc x he).1 (Set.notMem_empty x)
    · exact fun _ hc x he => absurd he (hc x true)

theorem greeted_aside (w : World) (hs : w.Settable) (peer : Int) (address : SockAddr) :
    Aside peer w (greeted w peer address).world ∧ (greeted w peer address).world.Quiet peer := by
  let text := replyText 220 "ftpii".toList
  have hsend : Aside peer w (sendExact peer text w).2 := sendExact_keeps aside_sends rfl text w
  have hquiet : (sendExact peer text w).2.Quiet peer := sendExact_quiet text hs
  exact ⟨aside_frame.trans hsend (.of_same (.refl _) rfl rfl), hquiet⟩

/-- Whatever becomes of an accepted peer, its socket ends in non-blocking mode or closed. -/
theorem acceptStep_minds (h : s.Tuned) (hwf : WellFormed s) (hset : s.world.Settable) {server : Int}
    (hq : s.world.Quiet server) : Minds Call.Free s (acceptStep server s).2 := by
  have hT : ∀ fd ∈ ({server} : Set Int), s.world.Quiet fd := fun fd hfd => hfd ▸ hq
  rcases acceptStep_obtains (calms_lookups (T := {server})) (calms_lookups (T := ∅)) hwf
      (waitOn_calms (Set.mem_singleton server)) with
    ⟨hcalm, he⟩ | ⟨peer, address, w, w', -, -, hw, hw', he⟩
  · rw [he]
    exact h.minds hcalm hT fun _ _ => id
  have hws : w'.Settable := hw'.drawn.settable ((opened_aside w peer).drawn.settable (hw.drawn.settable hset))
  obtain ⟨hgreet, hquiet⟩ := greeted_aside w' hws peer address
  rcases he with he | ⟨-, he⟩ | ⟨i, -, he⟩
  · have hclose : Calms {server} w (turnedAway w' peer) :=
      hw'.opened (netClose_aside peer w') (netClose_quiet peer w')
    rw [he]
    exact h.minds (calms_frame.trans hw hclose) hT fun _ _ => id
  · have hclose : Calms {server} w (ungreeted w' peer address) := hw'.opened
      (aside_frame.trans hgreet <| aside_frame.trans (setBlocking_keeps aside_sends rfl true _)
        (netClose_aside peer _)) (netClose_quiet peer _)
    rw [he]
    exact h.minds (calms_frame.trans hw hclose) hT fun _ _ => id
  · have henter : Calms {server} w (greeted w' peer address).world := hw'.opened hgreet hquiet
    rw [he]
    refine h.minds (calms_frame.trans hw henter) hT fun p c hp => ?_
    have hne : p ≠ s.nextClient := by
      rintro rfl
      rw [hwf.fresh s.nextClient le_rfl] at hp
      contradiction
    simpa [Server.entering, hne] using hp

theorem acceptEvents_minds (h : s.Tuned) (hwf : WellFormed s) (hs : s.Shares (listenerAt s.server))
    (hset : s.world.Settable) : Minds Call.Free s (acceptEvents s).2 := by
  let server := s.server
  let I := fun (_ : Unit) (t : Server) =>
    WellFormed t ∧ t.Shares (listenerAt server) ∧ Minds Call.Free s t
  have hstep : ∀ t, I () t → I () (acceptStep server t).2 := by
    intro t ht
    obtain ⟨htwf, hts, htm⟩ := ht
    obtain ⟨hwf', hs'⟩ := (endures_shares (listenerAt server)).acceptStep htwf hts server
    exact ⟨hwf', hs', htm.trans
      (acceptStep_minds htm.tuned htwf (htm.drawn.settable hset) (htm.tuned.listener hts))⟩
  have hloop : I () (processAcceptEvents server s).2 :=
    iterate_rule (I := I) (Q := fun _ t => I () t) (fun _ t _ ht _ => hstep t ht)
      (fun _ t _ ht _ => hstep t ht) (fun _ _ ht => ht) (netFuel s.world).1 (b := ())
      ⟨hwf, hs, .refl _, h, .of_eq rfl⟩
  obtain ⟨-, -, hminds⟩ := hloop
  exact ⟨hminds.drawn, hminds.tuned, hminds.calls⟩

/-! ## The end and the network -/

theorem cleanupSlot_minds (h : s.Tuned) (hwf : WellFormed s) (hs : s.Shares bound)
    (hset : s.world.Settable) (i : Fin MAX_CLIENTS) : Minds Call.Free s (cleanupSlot i s).2 := by
  rcases cleanupSlot_cases hwf i with ⟨-, he⟩ | ⟨p, c, hi, hp, he⟩
  · rw [he]
    exact ⟨.refl _, h, .of_eq rfl⟩
  let t := (dismiss ⟨c, s.world⟩).2
  have ht : Calms ∅ s.world t.world := writeReply_keeps calms_replies _ _ ⟨c, s.world⟩ hset
  have hc : t.client = c := writeReply_client _ _ _
  have htuned : t.Tuned (s.receiving p) := (h.session hp).calm ht fun fd hr => hc.symm ▸ hr
  obtain ⟨hcalm, hleft⟩ := closeSockets_tuned (ht.drawn.settable hset)
    (hc.symm ▸ hs.sound p c hp) htuned
  have hall := calms_frame.trans ht hcalm
  rw [he]
  exact ⟨hall.drawn, tuned_without i hleft, hall.calls.mono fun call hc fd he =>
    absurd (hc fd he).1 (Set.notMem_empty fd)⟩

theorem cleanupSlots_minds (is : List (Fin MAX_CLIENTS)) (h : s.Tuned) (hwf : WellFormed s)
    (hs : s.Shares bound) (hset : s.world.Settable) :
    Minds Call.Free s (Prog.forEach is cleanupSlot s).2 := by
  induction is generalizing s with
  | nil => exact ⟨.refl _, h, .of_eq rfl⟩
  | cons i is ih =>
    have hminds := cleanupSlot_minds h hwf hs hset i
    obtain ⟨hwf', hs', -⟩ := (endures_shares bound).cleanupSlot hwf hs i
    exact hminds.trans (ih hminds.tuned hwf' hs' (hminds.drawn.settable hset))

/-- What leaves the clients and only makes calls that do not wait. -/
def CalmTable (s s' : Server) : Prop := s'.heap = s.heap ∧ KeepsCalm ∅ s.world s'.world

theorem calmTable_frame : Frame CalmTable where
  refl s := ⟨rfl, keepsCalm_frame.refl s.world⟩
  trans h h' := ⟨h'.1.trans h.1, keepsCalm_frame.trans h.2 h'.2⟩

theorem sys_calm {α : Type} {m : Os α} (hm : Keeps (KeepsCalm ∅) m) : Keeps CalmTable (sys m) :=
  fun s => ⟨rfl, hm s.world⟩

theorem CalmTable.minds (hc : CalmTable s s') (h : s.Tuned) (hset : s.world.Settable) :
    Minds Call.Free s s' :=
  h.minds (hc.2 hset) (fun fd hfd => absurd hfd (Set.notMem_empty fd)) fun _ _ hp => hc.1 ▸ hp

def finish : Sys Unit := do
  let s ← Prog.get
  sys (netClose s.server)
  Prog.forEach VIRTUAL_PARTITIONS fun p => do
    let _ ← sys (unmount (some p))
    pure ()
  let _ ← sys dvdStop
  Prog.modify fun s => { s with halted := true }

theorem finish_calm : Keeps CalmTable finish := by
  have hF : Frame CalmTable := calmTable_frame
  have hunmount : ∀ p, Keeps CalmTable (sys (unmount (some p))) := fun p =>
    sys_calm (unmountSome_keeps (p := p) keepsCalm_devices.drives trivial)
  have hstop : Keeps CalmTable (sys dvdStop) := sys_calm (dvdStop_keeps keepsCalm_devices.drives)
  refine .bind hF (.get hF) fun t => .bind hF (sys_calm fun w _ => netClose_calms t.server w) fun _ =>
    .bind hF (.forEach hF (fun p => .bind hF (hunmount p) fun _ => .pure hF _) _) fun _ =>
      .bind hF hstop fun _ s => ⟨rfl, keepsCalm_frame.refl s.world⟩

theorem shutdown_minds (h : s.Tuned) (hwf : WellFormed s) (hs : s.Shares bound)
    (hset : s.world.Settable) : Minds Call.Free s (shutdown s).2 := by
  have hclean : Minds Call.Free s (cleanupFtp s).2 :=
    cleanupSlots_minds (List.finRange MAX_CLIENTS) h hwf hs hset
  have hrun : shutdown = cleanupFtp >>= fun _ => finish := rfl
  rw [hrun, bind_run]
  exact hclean.trans ((finish_calm _).minds hclean.tuned (hclean.drawn.settable hset))

theorem netDeinit_calms : Keeps (Calms T) netDeinit := fun w =>
  ⟨.refl w.answers, fun fd k hk _ => by simp [netDeinit, World.record] at hk,
    [.deinit], rfl, by simp [World.Allows]⟩

theorem createServer_calms (port : Nat) : Keeps (KeepsCalm T) (createServer port) := by
  intro w hs
  let a := netSocket w
  let b := setBlocking a.1 false a.2
  let n := netBind a.1 port b.2
  let l := netListen a.1 n.2
  have hrun : createServer port w =
      if a.1 < 0 then (none, a.2)
      else if n.1 < 0 then (some n.1, (netClose a.1 n.2).2)
      else if l.1 < 0 then (some l.1, (netClose a.1 l.2).2)
      else (some a.1, l.2) := by
    simp only [createServer, bind_run, ite_run, pure_run]
    rfl
  rw [hrun]
  rcases netSocket_obtains (calms_frame (T := T)) calms_lookups.answers w with
    ⟨hneg, hw⟩ | ⟨hpos, -, v, hv, -, ho⟩
  · rw [if_pos hneg]
    exact hw
  · have hvs := hv.drawn.settable hs
    have hb : Calms T v b.2 := by
      have hopen := opened_calms (T := T) hvs a.1
      rwa [← ho] at hopen
    have hquiet : b.2.Quiet a.1 := by
      have hset : (setBlocking a.1 false (v.openedSock a.1)).2.Quiet a.1 :=
        setBlocking_quiet ((opened_aside v a.1).drawn.settable hvs)
      rwa [← ho] at hset
    have hn : Calms T b.2 n.2 := netBind_calms port hquiet
    have hl : Calms T n.2 l.2 := netListen_calms (hn.quiet hquiet)
    have hbound := calms_frame.trans hv (calms_frame.trans hb hn)
    rw [if_neg (not_lt.mpr hpos)]
    split
    · exact calms_frame.trans hbound (netClose_calms a.1 n.2)
    · split
      · exact calms_frame.trans hbound (calms_frame.trans hl (netClose_calms a.1 l.2))
      · exact calms_frame.trans hbound hl

theorem reinitialise_calm : Keeps CalmTable reinitialise := by
  have hF : Frame CalmTable := calmTable_frame
  have hinit : Keeps (KeepsCalm ∅) initialiseNetwork := fun w _ =>
    initialiseNetwork_keeps calms_frame calms_lookups.answers netDeinit_calms w
  refine .bind hF (.get hF) fun t => .bind hF (sys_calm fun w _ => netClose_calms t.server w)
    fun _ => .bind hF (sys_calm hinit) fun _ => .bind hF (sys_calm (createServer_calms PORT)) fun o => ?_
  cases o with
  | none => exact fun s => ⟨rfl, keepsCalm_frame.refl s.world⟩
  | some server => exact fun s => ⟨rfl, keepsCalm_frame.refl s.world⟩

end Minds

/-! ## Runs -/

section Runs

variable {s : Server}

/-- The network is brought up again without clients, and net_fcntl succeeds. -/
def Server.Sets (s : Server) (l : Label) : Prop := s.Renews l ∧ l.Settable

theorem resetFlag_calm : Keeps (Calms ∅) setResetFlag := fun w =>
  .of_same (.refl w.answers) rfl (.of_eq rfl)

theorem Server.Tuned.step (h : s.Tuned) (hk : s.Kept) (hwf : WellFormed s) (hset : s.world.Settable)
    {l : Label} (hl : s.Sets l) :
    (s.step l).Tuned ∧ (s.step l).world.Settable ∧
      Adds (fun c => ∀ fd, c = .waits fd true → ∃ i, l = .slot i ∧ s.Uploads i fd) s.world
        (s.step l).world := by
  unfold Server.step
  split
  · exact ⟨h, hset, .of_eq rfl⟩
  rename_i hrun
  have hs := hk.running (by simpa using hrun)
  have hfree : ∀ {s' : Server}, Minds Call.Free s s' → s'.Tuned ∧ s'.world.Settable ∧
      Adds (fun c => ∀ fd, c = .waits fd true → ∃ i, l = .slot i ∧ s.Uploads i fd) s.world
        s'.world := fun hm =>
    ⟨hm.tuned, hm.drawn.settable hset, hm.calls.mono fun _ hc fd he => absurd he (hc fd)⟩
  cases l with
  | env answers => exact ⟨h, hl.2 answers rfl, .of_eq rfl⟩
  | reinit => exact hfree ((reinitialise_calm s).minds h hset)
  | dvdMount => exact hfree (h.sys (checkDvdMount_keeps calms_devices.drives fun _ => trivial))
  | accept => exact hfree (acceptEvents_minds h hwf hs hset)
  | slot i =>
    have hm := processSlot_minds h hwf hs hset i
    exact ⟨hm.tuned, hm.drawn.settable hset, hm.calls.mono fun _ hc fd he => ⟨i, rfl, hc fd he⟩⟩
  | wiimote => exact hfree (h.sys (calms_devices.console.wiimoteEvents resetFlag_calm))
  | gamecube => exact hfree (h.sys (calms_devices.console.gamecubeEvents resetFlag_calm))
  | timers => exact hfree (h.sys (calms_devices.console.timerEvents))
  | shutdown => exact hfree (shutdown_minds h hwf hs hset)

theorem Reachable.tuned (h : Reachable Server.Sets s) : s.Tuned ∧ s.world.Settable := by
  refine Reach.invariant_of (I := fun s : Server => s.Tuned ∧ s.world.Settable) (fun s hs => ?_)
    (fun s l hr hi hl => ?_) h
  · obtain ⟨disk, mounted, strerror, password, rfl⟩ := hs.eq
    refine ⟨fun fd hq => absurd (fun k hk => ?_) hq, fun r hr => ?_⟩
    · simp [Server.boot, World.boot] at hk
    · simp [Server.boot, World.boot] at hr
  · have hk : s.Kept := Reachable.kept (hr.mono fun _ _ hg => hg.1)
    obtain ⟨ht, hset, -⟩ := hi.1.step hk (Reachable.wellFormed hr) hi.2 hl
    exact ⟨ht, hset⟩

/-- In every run in which no client outlives the network and net_fcntl succeeds, the only calls that
wait for a peer in blocking mode are the reads of an upload over a connection that was accepted on
the client's passive socket. -/
theorem only_uploads_wait (h : Reachable Server.Sets s) {l : Label} (hl : s.Sets l) :
    ∃ calls, (s.step l).world.log = s.world.log ++ calls ∧
      ∀ fd, .waits fd true ∈ calls → ∃ i, l = .slot i ∧ s.Uploads i fd := by
  obtain ⟨ht, hset⟩ := h.tuned
  have hk : s.Kept := Reachable.kept (h.mono fun _ _ hg => hg.1)
  obtain ⟨-, -, calls, hlog, hcalls⟩ := ht.step hk (Reachable.wellFormed h) hset hl
  exact ⟨calls, hlog, fun fd hfd => hcalls _ hfd fd rfl⟩

end Runs

/-- A peer that connected to the passive socket of its client and has an upload to send. -/
def uploadRun : List Label :=
  connecting [{ data := "PASS x\r\nPASV\r\nSTOR /sd/a\r\n".toList }, { code := 5 }, {}, {}, {},
    { code := 6 }, { data := ['x'] }] ++ [firstTurn, firstTurn]

example : .waits 6 true ∈ ((Server.after uploadRun).step firstTurn).world.log := by decide +kernel

theorem uploadRun_sets : Reachable Server.Sets (Server.after uploadRun) := by
  let first : Label := .env { net := [{}, { addr := { ip := 1 } }, { code := 3 }, {}, {},
    { code := 4 }, { code := -EAGAIN }, { data := "PASS x\r\nPASV\r\nSTOR /sd/a\r\n".toList },
    { code := 5 }, {}, {}, {}, { code := 6 }, { data := ['x'] }] }
  have hother : ∀ (s : Server) {l : Label}, (∀ answers, l ≠ .env answers) →
      (l = .reinit → ∀ i, s.clients i = none) → s.Sets l := fun s l hl hr =>
    ⟨hr, fun answers he => absurd he (hl answers)⟩
  have hturn : ∀ s : Server, s.Sets firstTurn := fun s => hother s (by simp [firstTurn]) (by simp [firstTurn])
  have hfirst : (Server.after []).Sets first := ⟨fun h => by contradiction, fun answers he => by
    obtain rfl := Label.env.inj he
    simp⟩
  have hrun : uploadRun = [first, .reinit, .accept, firstTurn, firstTurn] := rfl
  have h0 : Reachable Server.Sets (Server.after []) := .init ⟨_, _, _, [], rfl⟩
  have h1 := h0.step first hfirst
  have h2 := h1.step .reinit (hother _ (by simp) fun _ _ => rfl)
  have h3 := h2.step .accept (hother _ (by simp) (by simp))
  have h4 := h3.step firstTurn (hturn _)
  rw [hrun]
  exact h4.step firstTurn (hturn _)

theorem only_uploads_wait_upload :
    ∃ calls, ((Server.after uploadRun).step firstTurn).world.log =
      (Server.after uploadRun).world.log ++ calls ∧
        ∀ fd, .waits fd true ∈ calls → ∃ i, firstTurn = .slot i ∧ (Server.after uploadRun).Uploads i fd :=
  only_uploads_wait uploadRun_sets
    ⟨fun h => by contradiction, fun answers he => by contradiction⟩

end Ftpii
