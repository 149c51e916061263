import Ftpii.DataTraffic
import Ftpii.SocketModes
set_option autoImplicit false

/-!
What a turn leaves to others. A client's turn uses its own sockets and its own stream, and on its
control connection it sends replies only.
-/

namespace Ftpii
open StateProgram Prog

/-! ## One socket among others -/

/-- No socket object is under two numbers, and no byte passed on one before it was obtained. -/
structure World.Distinct (w : World) : Prop where
  lt : ∀ fd k, w.socks fd = some k → k.id < w.nextSock
  one : ∀ fd fd' k k', w.socks fd = some k → w.socks fd' = some k' → k.id = k'.id → fd = fd'
  unsent : ∀ n, w.nextSock ≤ n → w.sent n = []
  unread : ∀ n, w.nextSock ≤ n → w.received n = []

structure Unused (k : Sock) (fd : Int) (w w' : World) : Prop where
  distinct : w'.Distinct
  sock : w'.socks fd = some k
  sent : w'.sent k.id = w.sent k.id
  received : w'.received k.id = w.received k.id

/-- If the socket under this number is open it was not used, and no event was noted. -/
structure Beside (fd : Int) (w w' : World) : Prop where
  hist : w'.hist = w.hist
  unused : w.Distinct → ∀ k, w.socks fd = some k → Unused k fd w w'

section Beside

variable {fd : Int} {w w' : World}

theorem beside_frame : Frame (Beside fd) where
  refl w := ⟨rfl, fun hd _ hk => ⟨hd, hk, rfl, rfl⟩⟩
  trans h h' := by
    refine ⟨h'.hist.trans h.hist, fun hd k hk => ?_⟩
    have hu := h.unused hd k hk
    have hu' := h'.unused hu.distinct k hu.sock
    exact ⟨hu'.distinct, hu'.sock, hu'.sent.trans hu.sent, hu'.received.trans hu.received⟩

theorem World.Distinct.same (h : w.Distinct) (hs : w'.socks = w.socks) (hn : w'.nextSock = w.nextSock)
    (ht : w'.sent = w.sent) (hr : w'.received = w.received) : w'.Distinct := by
  constructor
  · rw [hs, hn]
    exact h.lt
  · rw [hs]
    exact h.one
  · rw [hn, ht]
    exact h.unsent
  · rw [hn, hr]
    exact h.unread

theorem World.Distinct.write (h : w.Distinct) {x : Int} {k : Sock} (hk : w.socks x = some k)
    (data : Str) :
    World.Distinct { w with sent := Function.update w.sent k.id (w.sent k.id ++ data) } := by
  refine ⟨h.lt, h.one, fun n hn => ?_, h.unread⟩
  have hne : n ≠ k.id := (lt_of_lt_of_le (h.lt x k hk) hn).ne'
  exact (Function.update_of_ne hne _ _).trans (h.unsent n hn)

theorem World.Distinct.read (h : w.Distinct) {x : Int} {k : Sock} (hk : w.socks x = some k)
    (data : Str) :
    World.Distinct { w with received := Function.update w.received k.id (w.received k.id ++ data) } := by
  refine ⟨h.lt, h.one, h.unsent, fun n hn => ?_⟩
  have hne : n ≠ k.id := (lt_of_lt_of_le (h.lt x k hk) hn).ne'
  exact (Function.update_of_ne hne _ _).trans (h.unread n hn)

theorem Beside.of_same (hs : w'.socks = w.socks) (hn : w'.nextSock = w.nextSock)
    (ht : w'.sent = w.sent) (hr : w'.received = w.received) (hh : w'.hist = w.hist) :
    Beside fd w w' :=
  ⟨hh, fun hd k hk => ⟨hd.same hs hn ht hr, hs ▸ hk, by rw [ht], by rw [hr]⟩⟩

theorem World.Distinct.setSock (h : w.Distinct) {x : Int} {k k' : Sock} (hk : w.socks x = some k)
    (he : k'.id = k.id) : (w.setSock x (some k')).Distinct := by
  have hold : ∀ y l, (w.setSock x (some k')).socks y = some l → ∃ l', w.socks y = some l' ∧
      l'.id = l.id := by
    intro y l hl
    by_cases hy : y = x
    · subst hy
      obtain rfl : k' = l := by simpa [World.setSock] using hl
      exact ⟨k, hk, he.symm⟩
    · exact ⟨l, by simpa [World.setSock, hy] using hl, rfl⟩
  refine ⟨fun y l hl => ?_, fun y z l m hl hm heq => ?_, h.unsent, h.unread⟩
  · obtain ⟨l', hl', hid⟩ := hold y l hl
    exact hid ▸ h.lt y l' hl'
  · obtain ⟨l', hl', hid⟩ := hold y l hl
    obtain ⟨m', hm', hid'⟩ := hold z m hm
    exact h.one y z l' m' hl' hm' (by omega)

theorem World.Distinct.closed (h : w.Distinct) (x : Int) : (w.setSock x none).Distinct := by
  have hold : ∀ y l, (w.setSock x none).socks y = some l → w.socks y = some l := by
    intro y l hl
    by_cases hy : y = x
    · simp [World.setSock, hy] at hl
    · simpa [World.setSock, hy] using hl
  exact ⟨fun y l hl => h.lt y l (hold y l hl),
    fun y z l m hl hm => h.one y z l m (hold y l hl) (hold z m hm), h.unsent, h.unread⟩

theorem World.Distinct.opened (h : w.Distinct) (x : Int) : (w.openedSock x).Distinct := by
  have hold : ∀ y l, (w.openedSock x).socks y = some l →
      (y = x ∧ l.id = w.nextSock) ∨ (w.socks y = some l ∧ l.id < w.nextSock) := by
    intro y l hl
    by_cases hy : y = x
    · subst hy
      obtain rfl := Option.some.inj (by simpa [openedSock_socks] using hl)
      exact .inl ⟨rfl, rfl⟩
    · have hw : w.socks y = some l := by simpa [openedSock_socks, hy] using hl
      exact .inr ⟨hw, h.lt y l hw⟩
  refine ⟨fun y l hl => ?_, fun y z l m hl hm heq => ?_,
    fun n hn => h.unsent n (Nat.le_of_succ_le hn), fun n hn => h.unread n (Nat.le_of_succ_le hn)⟩
  · change l.id < w.nextSock + 1
    rcases hold y l hl with ⟨-, hid⟩ | ⟨-, hlt⟩ <;> omega
  · rcases hold y l hl with ⟨rfl, hid⟩ | ⟨hw, hlt⟩
    · rcases hold z m hm with ⟨rfl, -⟩ | ⟨-, hlt'⟩
      · rfl
      · omega
    · rcases hold z m hm with ⟨-, hid'⟩ | ⟨hw', -⟩
      · omega
      · exact h.one y z l m hw hw' heq

theorem Beside.of_setSock {x : Int} {k k' : Sock} (hx : x ≠ fd) (hk : w.socks x = some k)
    (he : k'.id = k.id) : Beside fd w (w.setSock x (some k')) :=
  ⟨rfl, fun hd l hl => ⟨hd.setSock hk he, by simpa [World.setSock, hx.symm] using hl, rfl, rfl⟩⟩

theorem World.Distinct.bytes (h : w.Distinct) {x : Int} {k l : Sock} (hx : x ≠ fd)
    (hk : w.socks x = some k) (hl : w.socks fd = some l) (f : Nat → Str) (data : Str) :
    Function.update f k.id data l.id = f l.id := by
  rw [Function.update_of_ne]
  intro he
  exact hx (h.one x fd k l hk hl he.symm)

theorem beside_sends : Sends (· ≠ fd) (Beside fd) where
  toFrame := beside_frame
  answers _ _ _ := .of_same rfl rfl rfl rfl rfl
  shrink _ := .of_same rfl rfl rfl rfl rfl
  flags _ _ _ _ hx hk := .of_setSock hx hk rfl
  write _ _ _ _ _ _ hx hk := ⟨rfl, fun hd _ hl =>
    ⟨(hd.write hk _).same rfl rfl rfl rfl, hl, hd.bytes hx hk hl _ _, rfl⟩⟩

theorem beside_lookups : Lookups (Beside fd) where
  toFrame := beside_frame
  answers _ _ _ := .of_same rfl rfl rfl rfl rfl
  errno _ _ := .of_same rfl rfl rfl rfl rfl

theorem beside_streams : UsesStreams (Beside fd) where
  toFrame := beside_frame
  answers _ _ _ := .of_same rfl rfl rfl rfl rfl
  errno _ _ := .of_same rfl rfl rfl rfl rfl
  disk _ _ := .of_same rfl rfl rfl rfl rfl
  renamed _ _ _ := .of_same rfl rfl rfl rfl rfl
  opened _ _ := .of_same rfl rfl rfl rfl rfl
  stream _ _ _ _ _ _ := .of_same rfl rfl rfl rfl rfl
  close _ _ _ _ := .of_same rfl rfl rfl rfl rfl

theorem beside_devices : UsesDevices (Beside fd) where
  toFrame := beside_frame
  answers _ _ _ := .of_same rfl rfl rfl rfl rfl
  devices _ _ := .of_same rfl rfl rfl rfl rfl

theorem popNet_beside : Keeps (Beside fd) popNet := popNet_keeps beside_frame beside_lookups.answers

theorem waitOn_beside (x : Int) : Keeps (Beside fd) (waitOn x) := by
  intro w
  unfold waitOn
  split
  · exact beside_frame.refl w
  · exact .of_same rfl rfl rfl rfl rfl

theorem opened_beside {x : Int} (hx : w.socks x = none) : Beside fd w (w.openedSock x) := by
  refine ⟨rfl, fun hd k hk => ⟨hd.opened x, ?_, rfl, rfl⟩⟩
  have hne : fd ≠ x := by
    rintro rfl
    rw [hx] at hk
    contradiction
  rw [openedSock_socks, Function.update_of_ne hne]
  exact hk

theorem openSock_beside (x : Int) : Keeps (Beside fd) (openSock x) := by
  intro w
  rcases openSock_cases x w with ho | ⟨hx, ho⟩
  · rw [ho]
    exact beside_frame.refl w
  · rw [ho]
    exact opened_beside hx

theorem netSocket_beside : Keeps (Beside fd) netSocket :=
  .bind beside_frame popNet_beside fun _ => .ite (.pure beside_frame _) (openSock_beside _)

theorem netAccept_beside (x : Int) : Keeps (Beside fd) (netAccept x) := by
  refine .bind beside_frame (waitOn_beside x) fun o => ?_
  cases o with
  | none => exact .pure beside_frame _
  | some k =>
    exact .bind beside_frame popNet_beside fun _ => .ite (.pure beside_frame _)
      (.bind beside_frame (openSock_beside _) fun _ => .pure beside_frame _)

theorem netConnect_beside (x : Int) (addr : SockAddr) : Keeps (Beside fd) (netConnect x addr) := by
  refine .bind beside_frame (waitOn_beside x) fun o => ?_
  cases o with
  | none => exact .pure beside_frame _
  | some k =>
    exact .bind beside_frame (fun _ => .of_same rfl rfl rfl rfl rfl) fun _ =>
      .bind beside_frame popNet_beside fun _ => .pure beside_frame _

theorem netRead_beside {x : Int} (hx : x ≠ fd) (len : Nat) : Keeps (Beside fd) (netRead x len) := by
  intro w
  unfold netRead
  rw [bind_run]
  cases hk : w.socks x with
  | none =>
    have hwait : waitOn x w = (none, w) := by simp [waitOn, hk]
    rw [hwait]
    exact beside_frame.refl w
  | some k =>
    have hwait : waitOn x w = (some k, w.record (.waits x k.blocking)) := by simp [waitOn, hk]
    rw [hwait]
    let v := (popNet (w.record (.waits x k.blocking))).2
    have hnoted : Beside fd w (w.record (.waits x k.blocking)) := .of_same rfl rfl rfl rfl rfl
    have hv : Beside fd w v := beside_frame.trans hnoted (popNet_beside _)
    have hkv : v.socks x = some k := by
      rw [popNet_socks]
      exact hk
    simp +instances only [bind_run, ite_run, pure_run, modify_run]
    split
    · exact hv
    · refine beside_frame.trans hv ⟨rfl, fun hd l hl => ⟨hd.read hkv _, hl, rfl, ?_⟩⟩
      exact hd.bytes hx hkv hl _ _

theorem netBind_beside {x : Int} (hx : x ≠ fd) (port : Nat) : Keeps (Beside fd) (netBind x port) := by
  refine .bind beside_frame popNet_beside fun _ => .ite (.pure beside_frame _) <|
    .bind beside_frame (fun w => ?_) fun _ => .pure beside_frame _
  simp only [modify_run]
  split
  · exact beside_frame.refl w
  · rename_i k hk
    exact .of_setSock hx hk rfl

theorem netListen_beside {x : Int} (hx : x ≠ fd) : Keeps (Beside fd) (netListen x) := by
  refine .bind beside_frame popNet_beside fun _ => .ite (.pure beside_frame _) <|
    .bind beside_frame (fun w => ?_) fun _ => .pure beside_frame _
  simp only [modify_run]
  split
  · exact beside_frame.refl w
  · rename_i k hk
    exact .of_setSock hx hk rfl

theorem netClose_beside {x : Int} (hx : x ≠ fd) : Keeps (Beside fd) (netClose x) := by
  refine fun w => ⟨rfl, fun hd l hl => ⟨(hd.closed x).same rfl rfl rfl rfl, ?_, rfl, rfl⟩⟩
  simpa [netClose, World.record, World.setSock, hx.symm] using hl

theorem netCloseBlocking_beside {x : Int} (hx : x ≠ fd) : Keeps (Beside fd) (netCloseBlocking x) :=
  .bind beside_frame (setBlocking_keeps beside_sends hx true) fun _ => netClose_beside hx

end Beside

/-! ## Replies and their bytes -/

def Event.IsReply : Event → Prop
  | .reply _ _ _ => True
  | _ => False

/-- What a reply is to put on its connection. -/
def Event.wire : Event → Str
  | .reply code text _ => replyText code text
  | _ => []

/-- What these events put on their connection: of each reply the whole text, or less if it failed. -/
inductive Spoken : List Event → Str → Prop where
  | nil : Spoken [] []
  | other {es : List Event} {bs : Str} (e : Event) : ¬ e.IsReply → Spoken es bs → Spoken (e :: es) bs
  | reply {es : List Event} {bs : Str} (code : Nat) (text : Str) (r : Int) (n : Nat) :
      (r = 0 ∧ n = (replyText code text).length ∨ r < 0 ∧ n < (replyText code text).length) →
      Spoken es bs → Spoken (.reply code text r :: es) ((replyText code text).take n ++ bs)

theorem Spoken.append {es es' : List Event} {bs bs' : Str} (h : Spoken es bs) (h' : Spoken es' bs') :
    Spoken (es ++ es') (bs ++ bs') := by
  induction h with
  | nil => exact h'
  | other e he _ ih => exact .other e he ih
  | reply code text r n hn _ ih =>
    rw [List.append_assoc]
    exact .reply code text r n hn ih

/-- Where no reply failed, the bytes are the texts of the replies. -/
theorem Spoken.whole {es : List Event} {bs : Str} (h : Spoken es bs)
    (hr : ∀ code text r, .reply code text r ∈ es → 0 ≤ r) : bs = es.flatMap Event.wire := by
  induction h with
  | nil => rfl
  | other e he _ ih =>
    have hrest := ih fun code text r hmem => hr code text r (List.mem_cons_of_mem _ hmem)
    have hnone : e.wire = [] := by cases e <;> simp_all [Event.IsReply, Event.wire]
    rw [List.flatMap_cons, hnone, hrest, List.nil_append]
  | reply code text r n hn _ ih =>
    have hrest := ih fun code text r hmem => hr code text r (List.mem_cons_of_mem _ hmem)
    have hpos := hr code text r List.mem_cons_self
    obtain ⟨-, rfl⟩ := hn.resolve_right fun h => by omega
    rw [List.take_length, List.flatMap_cons, ← hrest]
    rfl

/-! ## What a session does to a socket -/

/-- Socket object n is open under this number, which the client has for neither of its data sockets. -/
structure Session.Clear (fd : Int) (n : Nat) (s : Session) : Prop where
  valid : 0 ≤ fd
  passive : fd ≠ s.client.passiveSocket
  data : fd ≠ s.client.dataSocket
  distinct : s.world.Distinct
  object : ∃ k, s.world.socks fd = some k ∧ k.id = n

/-- Nothing was done to the socket, or it is the control socket, was sent replies and read from. -/
structure Followed (fd : Int) (n : Nat) (s s' : Session) : Prop where
  clear : s'.Clear fd n
  socket : s'.client.socket = s.client.socket
  conn : s'.client.conn = s.client.conn
  apart : fd ≠ s.client.socket → s'.world.socks fd = s.world.socks fd ∧
    s'.world.sent n = s.world.sent n ∧ s'.world.received n = s.world.received n
  spoken : fd = s.client.socket → ∃ es bs, s'.story = s.story ++ es ∧ Spoken es bs ∧
    s'.world.sent n = s.world.sent n ++ bs ∧
    s'.world.received n = s.world.received n ++ received es

/-- A socket that is no data socket of the client is followed. -/
def Watches (fd : Int) (n : Nat) (s s' : Session) : Prop := s.Clear fd n → Followed fd n s s'

section Watches

variable {fd : Int} {n : Nat}

theorem watches_frame : Frame (Watches fd n) where
  refl s hc :=
    ⟨hc, rfl, rfl, fun _ => ⟨rfl, rfl, rfl⟩, fun _ => ⟨[], [], by simp, .nil, by simp, by simp⟩⟩
  trans {a b c} h h' hc := by
    have hf := h hc
    have hf' := h' hf.clear
    refine ⟨hf'.clear, hf'.socket.trans hf.socket, hf'.conn.trans hf.conn, fun hne => ?_,
      fun he => ?_⟩
    · obtain ⟨hk, hs, hr⟩ := hf.apart hne
      obtain ⟨hk', hs', hr'⟩ := hf'.apart (hf.socket ▸ hne)
      exact ⟨hk'.trans hk, hs'.trans hs, hr'.trans hr⟩
    · obtain ⟨es, bs, hes, hs, hsent, hread⟩ := hf.spoken he
      obtain ⟨es', bs', hes', hs', hsent', hread'⟩ := hf'.spoken (hf.socket ▸ he)
      refine ⟨es ++ es', bs ++ bs', by rw [hes', hes, List.append_assoc], hs.append hs', ?_, ?_⟩
      · rw [hsent', hsent, List.append_assoc]
      · rw [hread', hread, received_append, List.append_assoc]

/-- What uses neither the socket nor the events, and gives the client no such data socket. -/
theorem Session.Clear.beside {s s' : Session} (h : s.Clear fd n) (hw : Beside fd s.world s'.world)
    (hs : s'.client.socket = s.client.socket) (hc : s'.client.conn = s.client.conn)
    (hp : fd ≠ s'.client.passiveSocket) (hd : fd ≠ s'.client.dataSocket) : Followed fd n s s' := by
  obtain ⟨k, hk, rfl⟩ := h.object
  have hu := hw.unused h.distinct k hk
  refine ⟨⟨h.valid, hp, hd, hu.distinct, k, hu.sock, rfl⟩, hs, hc,
    fun _ => ⟨hu.sock.trans hk.symm, hu.sent, hu.received⟩, fun _ => ⟨[], [], ?_, .nil, ?_, ?_⟩⟩
  · rw [Session.story, Session.story, hw.hist, hc, List.append_nil]
  · rw [hu.sent, List.append_nil]
  · rw [hu.received, received_nil, List.append_nil]

theorem Watches.of_world (c : Client) {w w' : World} (h : Beside fd w w') :
    Watches fd n ⟨c, w⟩ ⟨c, w'⟩ := fun hc => hc.beside h rfl rfl hc.passive hc.data

theorem Watches.of_client (s : Session) {c : Client} (h : s.client.SameNumbers c)
    (hc : c.conn = s.client.conn) : Watches fd n s { s with client := c } := fun hcl =>
  hcl.beside (beside_frame.refl s.world) h.socket hc (h.passive ▸ hcl.passive) (h.data ▸ hcl.data)

theorem Watches.emit (s : Session) {e : Event} (he : fd = s.client.socket → ¬ e.IsReply ∧ e.bytes = []) :
    Watches fd n s { s with world := s.world.emit s.client.conn e } := by
  refine fun hc => ⟨⟨hc.valid, hc.passive, hc.data, hc.distinct.same rfl rfl rfl rfl, hc.object⟩, rfl,
    rfl, fun _ => ⟨rfl, rfl, rfl⟩, fun hs => ⟨[e], [], story_emitted s e, .other e (he hs).1 .nil,
      by simp [World.emit], ?_⟩⟩
  rw [received_cons, (he hs).2]
  simp [World.emit]

theorem distinct_sends : Sends (fun _ => True) fun w w' => w.Distinct → w'.Distinct where
  refl _ := id
  trans h h' hd := h' (h hd)
  answers _ _ _ hd := hd.same rfl rfl rfl rfl
  shrink _ hd := hd.same rfl rfl rfl rfl
  flags _ _ _ _ _ hk hd := hd.setSock hk rfl
  write _ _ _ _ _ _ _ hk hd := (hd.write hk _).same rfl rfl rfl rfl

theorem distinct_talks : Talks fun w w' => w.Distinct → w'.Distinct where
  toSends := distinct_sends
  bound _ _ _ _ hk hd := hd.setSock hk rfl
  listening _ _ _ hk hd := hd.setSock hk rfl
  waits _ _ _ hd := hd.same rfl rfl rfl rfl
  connects _ _ _ hd := hd.same rfl rfl rfl rfl
  received _ _ _ _ hk hd := hd.read hk _

/-- Bytes are sent on the control connection, and noted as a reply. -/
theorem writeReply_watches (code : Nat) (msg : Str) : Keeps (Watches fd n) (writeReply code msg) := by
  intro s hc
  let v := sendExact s.client.socket (replyText code msg) s.world
  have hrun : (writeReply code msg s).2 =
      ⟨s.client, v.2.emit s.client.conn (.reply code msg v.1)⟩ := rfl
  have hstory := writeReply_story code msg s
  rw [hrun] at hstory ⊢
  have hv : v.2.Distinct := sendExact_keeps distinct_sends trivial _ s.world hc.distinct
  have hdistinct : (v.2.emit s.client.conn (.reply code msg v.1)).Distinct := hv.same rfl rfl rfl rfl
  obtain ⟨k, hk, rfl⟩ := hc.object
  by_cases he : fd = s.client.socket
  · subst he
    obtain ⟨m, ⟨hsent, k', hk', hid⟩, hend⟩ := sendExact_sent hk (replyText code msg)
    refine ⟨⟨hc.valid, hc.passive, hc.data, hdistinct, k', hk', hid⟩, rfl, rfl,
      fun hne => absurd rfl hne,
      fun _ => ⟨_, (replyText code msg).take m ++ [], hstory, .reply code msg v.1 m ?_ .nil, ?_, ?_⟩⟩
    · exact hend.imp_right fun h => ⟨h.1, h.2.1⟩
    · have hbytes := congrFun hsent k.id
      rw [Function.update_self] at hbytes
      rw [List.append_nil]
      exact hbytes
    · have hread : v.2.received = s.world.received :=
        sendExact_keeps sameReceived_sends (s := s.client.socket) trivial _ s.world
      simp [World.emit, hread, Event.bytes]
  · have hbeside : Beside fd s.world v.2 := sendExact_keeps beside_sends (Ne.symm he) _ s.world
    have hu := hbeside.unused hc.distinct k hk
    exact ⟨⟨hc.valid, hc.passive, hc.data, hdistinct, k, hu.sock, rfl⟩, rfl, rfl,
      fun _ => ⟨hu.sock.trans hk.symm, hu.sent, hu.received⟩, fun hsame => absurd hsame he⟩

theorem watches_replies : Replies (Watches fd n) := ⟨watches_frame, writeReply_watches⟩

theorem os_watches {α : Type} {m : Os α} (hm : Keeps (Beside fd) m) : Keeps (Watches fd n) (os m) :=
  fun s => .of_world s.client (hm s.world)

/-! ## Handlers -/

/-- A number under which a socket was obtained was not open before. -/
theorem Session.Clear.obtained {s : Session} (h : s.Clear fd n) : fd ≠ (netSocket s.world).1 := by
  rcases netSocket_cases s.world with ⟨hneg, -⟩ | ⟨-, hclosed, -⟩
  · have hpos := h.valid
    omega
  · rintro rfl
    obtain ⟨k, hk, -⟩ := h.object
    rw [hclosed] at hk
    contradiction

theorem closePassiveSocket_watches : Keeps (Watches fd n) closePassiveSocket := by
  intro s hc
  have hclose : Beside fd s.world (netCloseBlocking s.client.passiveSocket s.world).2 :=
    netCloseBlocking_beside hc.passive.symm s.world
  have hneg : fd ≠ -1 := by
    have hpos := hc.valid
    omega
  simp +instances only [closePassiveSocket, bind_run, client_run, ite_run, os_run, pure_run,
    update_run]
  split
  · exact hc.beside hclose rfl rfl hneg hc.data
  · exact watches_frame.refl s hc

theorem prepareDataConnectionActive_watches : Keeps (Watches fd n) prepareDataConnectionActive := by
  intro s hc
  have hne := hc.obtained
  have hsocket : Beside fd s.world (netSocket s.world).2 := netSocket_beside s.world
  rw [prepareDataConnectionActive_run]
  simp only
  generalize netSocket s.world = a at hne hsocket ⊢
  have hbind : Beside fd s.world (netBind a.1 SRC_PORT (setBlocking a.1 false a.2).2).2 :=
    beside_frame.trans hsocket <| beside_frame.trans
      (setBlocking_keeps beside_sends hne.symm false a.2) (netBind_beside hne.symm SRC_PORT _)
  split
  · exact hc.beside hsocket rfl rfl hc.passive hc.data
  · split
    · exact hc.beside (beside_frame.trans hbind (netClose_beside hne.symm _)) rfl rfl hc.passive hc.data
    · exact hc.beside hbind rfl rfl hc.passive hne

theorem prepareDataConnection_watches (callback : Callback) (arg : Nat) (cleanup : Cleanup) :
    Keeps (Watches fd n) (prepareDataConnection callback arg cleanup) := by
  have hF : Frame (Watches fd n) := watches_frame
  have hreply : ∀ code msg, Keeps (Watches fd n) (writeReply code msg) := writeReply_watches
  refine .bind hF (hreply _ _) fun _ => .ite (.pure hF _) <|
    .bind hF (.gets hF _) fun c => .bind hF (.ite ?_ prepareDataConnectionActive_watches) fun _ => ?_
  · refine .bind hF (fun s hc => ?_) fun _ => .pure hF _
    exact hc.beside (beside_frame.refl s.world) rfl rfl hc.passive hc.passive
  · refine .ite (.bind hF (fun s => .emit s fun _ => by simp [Event.IsReply, Event.bytes]) fun _ => hreply _ _) ?_
    refine .bind hF (os_watches (gettime_keeps beside_frame beside_lookups.answers)) fun _ =>
      .bind hF (fun s hc => ?_) fun _ => .pure hF _
    exact hc.beside (beside_frame.refl s.world) rfl rfl hc.passive hc.data

theorem listenPassive_watches {x : Int} (hx : x ≠ fd) : Keeps (Watches fd n) (listenPassive x) := by
  have hF : Frame (Watches fd n) := watches_frame
  have hreply : ∀ code msg, Keeps (Watches fd n) (writeReply code msg) := writeReply_watches
  have hclose : ∀ msg, Keeps (Watches fd n) (do
      closePassiveSocket
      writeReply 520 msg) := fun msg => .bind hF closePassiveSocket_watches fun _ => hreply _ _
  refine .bind hF (os_watches (setBlocking_keeps beside_sends hx false)) fun _ =>
    .bind hF (os_watches fun w => .of_same rfl rfl rfl rfl rfl) fun port =>
    .bind hF (os_watches (netBind_beside hx port)) fun _ => .ite (hclose _) ?_
  refine .bind hF (os_watches (netListen_beside hx)) fun _ => .ite (hclose _) ?_
  exact .bind hF (os_watches (netGethostip_keeps beside_frame beside_lookups.answers)) fun _ =>
    hreply _ _

theorem ftpPasv_watches (rest : Str) : Keeps (Watches fd n) (ftpPasv rest) := by
  intro s hc
  let u := (closePassiveSocket s).2
  have hu : Followed fd n s u := closePassiveSocket_watches s hc
  have hne := hu.clear.obtained
  have ht : Watches fd n u
      ⟨{ u.client with passiveSocket := (netSocket u.world).1 }, (netSocket u.world).2⟩ := fun hcl =>
    hcl.beside (netSocket_beside u.world) rfl rfl hne hcl.data
  rw [ftpPasv_run]
  refine watches_frame.trans (watches_frame.trans (fun _ => hu) ht) ?_ hc
  simp only
  split
  · exact writeReply_watches _ _ _
  · exact listenPassive_watches hne.symm _

theorem watches_setup : SetupUse (Watches fd n) where
  toReplies := watches_replies
  streams c := beside_streams.imp (frameAt watches_frame c) fun _ _ h => .of_world c h
  devices c := (beside_devices.imp (frameAt watches_frame c) fun _ _ h => .of_world c h).mounts
  statics s _ _ _ _ := .of_world s.client (.of_same rfl rfl rfl rfl rfl)
  type s _ := .of_client s ⟨rfl, rfl, rfl, rfl, rfl, rfl⟩ rfl
  pending s _ := .of_client s ⟨rfl, rfl, rfl, rfl, rfl, rfl⟩ rfl
  auth s := .of_client s ⟨rfl, rfl, rfl, rfl, rfl, rfl⟩ rfl
  cwd s _ := .of_client s ⟨rfl, rfl, rfl, rfl, rfl, rfl⟩ rfl
  marker s _ := .of_client s ⟨rfl, rfl, rfl, rfl, rfl, rfl⟩ rfl
  prepare := prepareDataConnection_watches
  pasv := ftpPasv_watches
  port portspec := ftpPort_closes watches_replies closePassiveSocket_watches
    (fun s _ => .of_client s ⟨rfl, rfl, rfl, rfl, rfl, rfl⟩ rfl) portspec
  rein rest := ftpRein_closes watches_replies closePassiveSocket_watches
    (fun s => .of_client s ⟨rfl, rfl, rfl, rfl, rfl, rfl⟩ rfl) rest

theorem processCommand_watches (cmdLine : Str) : Keeps (Watches fd n) (processCommand cmdLine) :=
  watches_setup.command (fun s _ _ => .emit s fun _ => by simp [Event.IsReply, Event.bytes]) cmdLine

/-! ## Turns -/

theorem popNet_received (w : World) : (popNet w).2.received = w.received := by
  unfold popNet
  split <;> rfl

theorem heard_noted (s : Session) (len : Nat) :
    ∃ e : Event, s.heard len =
        ⟨s.client, (netRead s.client.socket len s.world).2.emit s.client.conn e⟩ ∧ ¬ e.IsReply ∧
      ∀ k, s.world.socks s.client.socket = some k →
        (netRead s.client.socket len s.world).2.received k.id =
          s.world.received k.id ++ e.bytes := by
  refine ⟨_, rfl, ?_, fun k hk => ?_⟩
  · cases (netRead s.client.socket len s.world).1 <;> simp [Event.IsReply]
  · have hpop : (popNet (s.world.record (.waits s.client.socket k.blocking))).2.received =
        s.world.received := popNet_received _
    rw [netRead_run, hk]
    simp only
    split
    · simp [Event.bytes, hpop]
    · simp [Event.bytes, hpop]

theorem heard_watches (s : Session) (len : Nat) : Watches fd n s (s.heard len) := by
  intro hc
  obtain ⟨e, hrun, hreply, hread⟩ := heard_noted s len
  have hsame := netRead_receives s.client.socket len s.world
  rw [hrun]
  by_cases he : fd = s.client.socket
  · obtain ⟨k, hk, rfl⟩ := hc.object
    have hd : (netRead s.client.socket len s.world).2.Distinct :=
      netRead_keeps distinct_talks s.client.socket len s.world hc.distinct
    refine ⟨⟨hc.valid, hc.passive, hc.data, hd.same rfl rfl rfl rfl, k,
      hsame.socks ▸ hk, rfl⟩, rfl, rfl, fun hne => absurd he hne, fun _ => ⟨[e], [], ?_, .other e hreply .nil, ?_, ?_⟩⟩
    · have hstory := story_emitted ⟨s.client, (netRead s.client.socket len s.world).2⟩ e
      rw [hstory, Session.story, Session.story, hsame.hist]
    · simp [World.emit, hsame.sent]
    · simpa [World.emit] using hread k (he ▸ hk)
  · have hf : Followed fd n s ⟨s.client, (netRead s.client.socket len s.world).2⟩ :=
      hc.beside (netRead_beside (Ne.symm he) len s.world) rfl rfl hc.passive hc.data
    exact watches_frame.trans (fun _ => hf) (.emit ⟨s.client, _⟩ fun h => absurd h he) hc

theorem watches_reads : ReadsLines (Watches fd n) where
  toFrame := watches_frame
  heard := heard_watches
  event s e he := .emit s fun _ => by
    cases e <;> simp_all [Event.OfLine, Event.IsReply, Event.bytes]
  buffer s _ _ := .of_client s ⟨rfl, rfl, rfl, rfl, rfl, rfl⟩ rfl
  command cmdLine s _ := processCommand_watches cmdLine s

theorem runCallback_beside (callback : Callback) {x : Int} (hx : x ≠ fd) (arg : Nat) :
    Keeps (Beside fd) (runCallback callback x arg) := by
  have hcarries : Carries callback x (Beside fd) :=
    { toFrame := beside_frame
      send := fun buf => sendExact_keeps beside_sends hx buf
      shrink := fun _ => .of_same rfl rfl rfl rfl rfl
      read := fun _ len => netRead_beside hx len }
  exact runCallback_keeps hcarries beside_streams.toStreaming trivial

theorem timed_watches (result : Int) (s : Session) : Watches fd n s (timed result s).2 :=
  .of_world s.client (gettime_keeps beside_frame beside_lookups.answers s.world)

theorem dataStep_watches : Keeps (Watches fd n) dataStep := by
  intro s hcl
  by_cases hc : s.client.dataConnectionConnected = true
  · have hrun : dataStep s = driveTransfer s := by
      simp only [dataStep, bind_run, client_run, hc, if_true]
    rw [hrun]
    simp only [driveTransfer, bind_run, client_run]
    cases s.client.dataCallback with
    | none => exact watches_frame.refl s hcl
    | some callback =>
      cases s.client.dataConnectionCallbackArg with
      | none => exact watches_frame.refl s hcl
      | some arg => exact os_watches (runCallback_beside callback hcl.data.symm arg) s hcl
  · have hc' : s.client.dataConnectionConnected = false := by simpa using hc
    have hrun : dataStep s = awaitDataConnection s := by
      simp only [dataStep, bind_run, client_run, hc', Bool.false_eq_true, if_false]
    rw [hrun, awaitDataConnection_run hc']
    simp only
    split
    · have haccept : Beside fd s.world (netAccept s.client.passiveSocket s.world).2 :=
        netAccept_beside s.client.passiveSocket s.world
      split
      · have hne : fd ≠ (netAccept s.client.passiveSocket s.world).1.1 := by
          rcases netAccept_cases s.client.passiveSocket s.world with ⟨hneg, -⟩ | ⟨-, hclosed, -⟩
          · have hpos := hcl.valid
            omega
          · rintro rfl
            obtain ⟨k, hk, -⟩ := hcl.object
            rw [hclosed] at hk
            contradiction
        exact hcl.beside haccept rfl rfl hcl.passive hne
      · exact watches_frame.trans (.of_world s.client haccept) (timed_watches _ _) hcl
    · have hconnect : Beside fd s.world
          (netConnect s.client.dataSocket s.client.address s.world).2 :=
        netConnect_beside s.client.dataSocket s.client.address s.world
      split
      · exact hcl.beside hconnect rfl rfl hcl.passive hcl.data
      · exact watches_frame.trans (.of_world s.client hconnect) (timed_watches _ _) hcl

theorem cleanupDataResources_watches : Keeps (Watches fd n) cleanupDataResources := by
  have hF : Frame (Watches fd n) := watches_frame
  have hclose : Keeps (Watches fd n) closeDataSocket := by
    intro s hc
    simp +instances only [closeDataSocket, bind_run, client_run, ite_run, os_run, pure_run]
    split
    · exact Watches.of_world s.client (netCloseBlocking_beside hc.data.symm s.world) hc
    · exact watches_frame.refl s hc
  have hcleanup : Keeps (Watches fd n) runClientCleanup := by
    refine .bind hF (.gets hF _) fun c => ?_
    split
    · exact os_watches (runCleanup_keeps beside_streams.toClosing _ trivial)
    · exact .pure hF _
  refine .bind hF hclose fun _ => .bind hF (fun s hc => ?_) fun _ => .bind hF hcleanup fun _ s hc => ?_
  · have hneg : fd ≠ -1 := by
      have hpos := hc.valid
      omega
    exact hc.beside (beside_frame.refl s.world) rfl rfl hc.passive hneg
  · exact hc.beside (beside_frame.refl s.world) rfl rfl hc.passive hc.data

theorem dataEvents_watches : Keeps (Watches fd n) dataEvents := by
  have hF : Frame (Watches fd n) := watches_frame
  intro s
  rw [dataEvents_run]
  simp only
  have hstep : Watches fd n s (dataStep s).2 := dataStep_watches s
  split
  · have hdone : Keeps (Watches fd n) (transferDone (dataStep s).1) :=
      .ite (transferError_keeps watches_replies) (writeReply_watches _ _)
    exact hF.trans hstep (hF.trans (cleanupDataResources_watches _) (hdone _))
  · exact hstep

theorem turn_watches (c : Client) : Keeps (Watches fd n) (turn c) :=
  .ite dataEvents_watches (controlEvents_keeps watches_reads)

/-- A client that is cleaned up does nothing to a socket that is not its own. -/
theorem closeSockets_watches {s : Session} (hc : s.Clear fd n) (hne : fd ≠ s.client.socket) :
    Followed fd n s (closeSockets s).2 := by
  have hclose : Watches fd n s ⟨s.client, (netCloseBlocking s.client.socket s.world).2⟩ :=
    .of_world s.client (netCloseBlocking_beside hne.symm s.world)
  exact watches_frame.trans hclose (watches_frame.trans (cleanupDataResources_watches _)
    (closePassiveSocket_watches _)) hc

end Watches

end Ftpii
