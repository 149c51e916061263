import Ftpii.FreshSession
import Ftpii.OpenFiles
import Ftpii.PeerIdentity
set_option autoImplicit false

/-!
The sockets of one client: which calls open and close them, and that what is open
stays its own or the others' through its commands, transfers and cleanup.
-/

namespace Ftpii
open StateProgram Prog Ownership

/-! ## The books -/

/-- The calls that open or close one socket. -/
def Call.booked : Call → Bool
  | .opened _ _ => true
  | .closed _ _ => true
  | _ => false

def World.openNumbers (w : World) : Set Int := {fd | (w.socks fd).isSome}

/-- A socket was closed once, or never and is open, and nothing else was closed. -/
structure World.Balanced (w : World) : Prop extends w.Registered where
  unused : ∀ fd id, w.nextSock ≤ id → .closed fd (some id) ∉ w.log
  once : ∀ fd id, .opened fd id ∈ w.log → w.log.count (.closed fd (some id)) =
    if (w.socks fd).map Sock.id = some id then 0 else 1
  valid : ∀ fd, .closed fd none ∈ w.log → fd < 0

/-- The books are balanced, and what is open is in the one set or the other. -/
structure World.Shares (rest mine : Set Int) (w : World) : Prop extends w.Balanced where
  share : Share rest w.openNumbers mine

structure SameSocks (w w' : World) : Prop where
  logs : Logs w w'
  nextSock : w'.nextSock = w.nextSock
  ids : ∀ fd, (w'.socks fd).map Sock.id = (w.socks fd).map Sock.id
  booked : w'.log.filter Call.booked = w.log.filter Call.booked

theorem sameSocks_frame : Frame SameSocks where
  refl w := ⟨logs_frame.refl w, rfl, fun _ => rfl, rfl⟩
  trans h h' := ⟨logs_frame.trans h.logs h'.logs, h'.nextSock.trans h.nextSock,
    fun fd => (h'.ids fd).trans (h.ids fd), h'.booked.trans h.booked⟩

theorem SameSocks.of_same {w w' : World} (hl : w'.log = w.log) (hn : w'.nextSock = w.nextSock)
    (hs : w'.socks = w.socks) : SameSocks w w' :=
  ⟨.of_same hl hn hs, hn, fun _ => by rw [hs], by rw [hl]⟩

theorem SameSocks.of_setSock {w : World} {fd : Int} {k k' : Sock} (hk : w.socks fd = some k)
    (he : k'.id = k.id) : SameSocks w (w.setSock fd (some k')) := by
  refine ⟨.of_setSock hk he, rfl, fun x => ?_, rfl⟩
  by_cases hx : x = fd
  · simp [World.setSock, hx, hk, he]
  · simp [World.setSock, hx]

theorem SameSocks.of_noted (w : World) {c : Call} (hc : c.booked = false) :
    SameSocks w (w.record c) := by
  refine ⟨logs_noted w c fun fd id he => ?_, rfl, fun _ => rfl, ?_⟩
  · subst he
    contradiction
  · simp [World.record, List.filter_append, hc]

theorem sameSocks_talks : Talks SameSocks where
  toFrame := sameSocks_frame
  answers _ _ _ := .of_same rfl rfl rfl
  shrink _ := .of_same rfl rfl rfl
  flags _ _ _ _ _ hk := .of_setSock hk rfl
  write w s k d n r _ _ := by
    have hsent : SameSocks w { w with sent := Function.update w.sent k.id (w.sent k.id ++ d) } :=
      .of_same rfl rfl rfl
    exact sameSocks_frame.trans hsent (.of_noted _ rfl)
  bound _ _ _ _ hk := .of_setSock hk rfl
  listening _ _ _ hk := .of_setSock hk rfl
  waits w _ _ := .of_noted w rfl
  connects w _ _ := .of_noted w rfl
  received _ _ _ _ _ := .of_same rfl rfl rfl

theorem sameSocks_streams : UsesStreams SameSocks where
  toFrame := sameSocks_frame
  answers _ _ _ := .of_same rfl rfl rfl
  errno _ _ := .of_same rfl rfl rfl
  disk _ _ := .of_same rfl rfl rfl
  renamed w _ _ := .of_noted w rfl
  opened _ _ := .of_same rfl rfl rfl
  stream _ _ _ _ _ _ := .of_same rfl rfl rfl
  close _ _ _ _ := .of_same rfl rfl rfl

theorem sameSocks_devices : UsesDevices SameSocks where
  toFrame := sameSocks_frame
  answers _ _ _ := .of_same rfl rfl rfl
  devices _ _ := .of_same rfl rfl rfl

theorem sameSocks_replies : Replies (OnWorld SameSocks) :=
  .of_sends (OnWorld.frame sameSocks_frame)
    (fun _ => sameSocks_talks.toSends.mono fun _ _ => trivial) fun _ _ _ _ => .of_same rfl rfl rfl

theorem Idle.sameSocks {w w' : World} (h : Idle w w') : SameSocks w w' := by
  have hlogs := h.logs
  obtain ⟨a, e, d, r, l, rfl, hl⟩ := h
  refine ⟨hlogs, rfl, fun _ => rfl, ?_⟩
  have hnone : l.filter Call.booked = [] := by
    refine List.filter_eq_nil_iff.mpr fun c hc => ?_
    obtain ⟨s, b, rfl⟩ := hl c hc
    simp [Call.booked]
  simp [List.filter_append, hnone]

theorem SameSocks.mem {w w' : World} (h : SameSocks w w') {c : Call} (hc : c.booked = true) :
    c ∈ w'.log ↔ c ∈ w.log := by
  have hmem : ∀ v : World, c ∈ v.log ↔ c ∈ v.log.filter Call.booked := fun v => by
    simp [List.mem_filter, hc]
  rw [hmem, hmem, h.booked]

theorem SameSocks.count {w w' : World} (h : SameSocks w w') {c : Call} (hc : c.booked = true) :
    w'.log.count c = w.log.count c := by
  rw [← List.count_filter hc, h.booked, List.count_filter hc]

theorem SameSocks.openNumbers {w w' : World} (h : SameSocks w w') :
    w'.openNumbers = w.openNumbers := by
  ext fd
  have hid := congrArg Option.isSome (h.ids fd)
  simpa [World.openNumbers, Option.isSome_map] using hid

section Shares

variable {rest mine : Set Int} {w : World}

theorem World.Balanced.same (h : w.Balanced) {w' : World} (hw : SameSocks w w') : w'.Balanced where
  toRegistered := hw.logs.registered h.toRegistered
  unused fd id hid := by
    rw [hw.mem rfl]
    exact h.unused fd id (hw.nextSock ▸ hid)
  once fd id ho := by
    rw [hw.count rfl, hw.ids]
    exact h.once fd id ((hw.mem rfl).mp ho)
  valid fd hc := h.valid fd ((hw.mem rfl).mp hc)

theorem World.Shares.same (h : w.Shares rest mine) {w' : World} (hw : SameSocks w w') :
    w'.Shares rest mine := by
  refine ⟨h.toBalanced.same hw, ?_⟩
  rw [hw.openNumbers]
  exact h.share

theorem World.Balanced.opened (h : w.Balanced) {fd : Int} (hfd : w.socks fd = none) :
    (w.openedSock fd).Balanced := by
  have hlog : (w.openedSock fd).log = w.log ++ [.opened fd w.nextSock] := rfl
  refine ⟨(logs_opened w fd).registered h.toRegistered, fun x id hid => ?_, fun x id ho => ?_,
    fun x hc => ?_⟩
  · have hid' : w.nextSock ≤ id := Nat.le_of_succ_le hid
    simpa [hlog] using h.unused x id hid'
  · have hcount : (w.openedSock fd).log.count (.closed x (some id)) =
        w.log.count (.closed x (some id)) := by
      simp [hlog, List.count_append]
    rw [hcount, openedSock_socks]
    rw [hlog, List.mem_append, List.mem_singleton, Call.opened.injEq] at ho
    cases ho with
    | inl hold =>
      have hlt := h.lt x id hold
      rw [h.once x id hold]
      by_cases hx : x = fd
      · subst hx
        have hne : w.nextSock ≠ id := by omega
        simp [hfd, hne]
      · rw [Function.update_of_ne hx]
    | inr hnew =>
      obtain ⟨rfl, rfl⟩ := hnew
      have hzero := List.count_eq_zero.mpr (h.unused x w.nextSock le_rfl)
      simp [hzero]
  · exact h.valid x (by simpa [hlog] using hc)

theorem World.Shares.opened (h : w.Shares rest mine) {fd : Int} (hfd : w.socks fd = none) :
    (w.openedSock fd).Shares rest (insert fd mine) := by
  refine ⟨h.toBalanced.opened hfd, ?_⟩
  have hnew : fd ∉ w.openNumbers := by simp [World.openNumbers, hfd]
  have hset : (w.openedSock fd).openNumbers = insert fd w.openNumbers := by
    ext x
    by_cases hx : x = fd
    · simp [World.openNumbers, openedSock_socks, hx]
    · simp [World.openNumbers, openedSock_socks, hx]
  rw [hset]
  exact h.share.insert hnew

theorem World.Shares.openedIdle (h : w.Shares rest mine) {w' : World} (hw : Idle w w') {fd : Int}
    (hclosed : w.socks fd = none) : (w'.openedSock fd).Shares rest (insert fd mine) := by
  have hclosed' : w'.socks fd = none := by rwa [hw.socks]
  exact (h.same hw.sameSocks).opened hclosed'

theorem World.Balanced.closed (h : w.Balanced) {fd : Int} (hfd : (w.socks fd).isSome ∨ fd < 0) :
    (netClose fd w).2.Balanced := by
  have hlog : (netClose fd w).2.log = w.log ++ [.closed fd ((w.socks fd).map Sock.id)] := rfl
  have hsocks : (netClose fd w).2.socks = Function.update w.socks fd none := rfl
  refine ⟨(logs_closed w fd).registered h.toRegistered, fun x id hid hc => ?_, fun x id ho => ?_,
    fun x hc => ?_⟩
  · rw [hlog, List.mem_append, List.mem_singleton, Call.closed.injEq] at hc
    cases hc with
    | inl hold => exact h.unused x id hid hold
    | inr hnew =>
      obtain ⟨k, hk, rfl⟩ := Option.map_eq_some_iff.mp hnew.2.symm
      exact absurd (h.lt fd k.id (h.noted fd k hk)) (not_lt.mpr hid)
  · have hold : .opened x id ∈ w.log := by simpa [hlog] using ho
    rw [hlog, hsocks, List.count_append, h.once x id hold]
    by_cases hx : x = fd
    · subst hx
      cases hk : w.socks x with
      | none => simp
      | some k =>
        by_cases he : k.id = id
        · simp [he]
        · simp [he]
    · have hne : fd ≠ x := Ne.symm hx
      simp [Function.update_of_ne hx, hne]
  · rw [hlog, List.mem_append, List.mem_singleton, Call.closed.injEq] at hc
    cases hc with
    | inl hold => exact h.valid x hold
    | inr hnew =>
      obtain ⟨rfl, hnone⟩ := hnew
      exact hfd.resolve_left (by simpa using hnone.symm)

theorem World.Shares.closed (h : w.Shares rest mine) {fd : Int} (hfd : fd ∈ mine) :
    (netClose fd w).2.Shares rest (mine \ {fd}) := by
  have hopen : fd ∈ w.openNumbers := (h.share.held fd).mpr (.inl hfd)
  refine ⟨h.toBalanced.closed (.inl hopen), ?_⟩
  have hset : (netClose fd w).2.openNumbers = w.openNumbers \ {fd} := by
    ext x
    by_cases hx : x = fd
    · simp [World.openNumbers, netClose, World.record, World.setSock, hx]
    · simp [World.openNumbers, netClose, World.record, World.setSock, hx]
  rw [hset]
  exact h.share.erase hfd

theorem World.Shares.closedBlocking (h : w.Shares rest mine) {fd : Int} (hfd : fd ∈ mine) :
    (netCloseBlocking fd w).2.Shares rest (mine \ {fd}) :=
  (h.same (setBlocking_keeps sameSocks_talks.toSends trivial true w)).closed hfd

theorem World.Shares.closedIf (h : w.Shares rest mine) {c : Prop} [Decidable c] {fd : Int}
    (hfd : c → fd ∈ mine) :
    (if c then (netCloseBlocking fd w).2 else w).Shares rest (mine \ {x | c ∧ x = fd}) := by
  split
  · rename_i hc
    have hset : {x | c ∧ x = fd} = {fd} := by
      ext x
      simp [hc]
    rw [hset]
    exact h.closedBlocking (hfd hc)
  · rename_i hc
    have hset : {x | c ∧ x = fd} = ∅ := by
      ext x
      simp [hc]
    rw [hset, Set.sdiff_empty]
    exact h

end Shares

/-! ## One client -/

/-- The data socket, where it is not the passive one too. -/
def Client.dataNumber (c : Client) : Set Int :=
  {fd | (0 ≤ c.dataSocket ∧ c.dataSocket ≠ c.passiveSocket) ∧ fd = c.dataSocket}

def Client.passiveNumber (c : Client) : Set Int :=
  {fd | 0 ≤ c.passiveSocket ∧ fd = c.passiveSocket}

def Client.numbers (c : Client) : Set Int :=
  {fd | 0 ≤ fd ∧ (fd = c.socket ∨ fd = c.passiveSocket ∨ fd = c.dataSocket)}

/-- A transfer is pending whose connection is still to be accepted on the passive socket. -/
def Client.Awaits (c : Client) : Prop :=
  c.dataCallback ≠ none ∧ c.dataConnectionConnected = false ∧ 0 ≤ c.passiveSocket

/-- A client's sockets are told apart, and go with its transfer. -/
structure Client.Sound (c : Client) : Prop where
  socket : 0 ≤ c.socket
  passive : c.passiveSocket ≠ c.socket
  data : c.dataSocket ≠ c.socket
  idle : c.dataCallback = none → c.dataSocket = -1 ∧ c.dataConnectionCleanup = none
  busy : c.dataCallback ≠ none → 0 ≤ c.dataSocket ∧ c.dataConnectionCleanup ≠ none
  shared : 0 ≤ c.dataSocket → (c.dataSocket = c.passiveSocket ↔ c.Awaits)

/-- A socket for a transfer is prepared that was not started yet. -/
structure Client.Ready (c : Client) : Prop where
  socket : 0 ≤ c.socket
  passive : c.passiveSocket ≠ c.socket
  data : c.dataSocket ≠ c.socket
  valid : 0 ≤ c.dataSocket
  shared : c.dataSocket = c.passiveSocket ↔ 0 ≤ c.passiveSocket

structure Client.SameNumbers (c c' : Client) : Prop where
  socket : c'.socket = c.socket
  passive : c'.passiveSocket = c.passiveSocket
  data : c'.dataSocket = c.dataSocket
  callback : c'.dataCallback = c.dataCallback
  cleanup : c'.dataConnectionCleanup = c.dataConnectionCleanup
  connected : c'.dataConnectionConnected = c.dataConnectionConnected

theorem Client.SameNumbers.refl (c : Client) : c.SameNumbers c := ⟨rfl, rfl, rfl, rfl, rfl, rfl⟩

theorem Client.SameNumbers.numbers {c c' : Client} (h : c.SameNumbers c') :
    c'.numbers = c.numbers := by
  rw [Client.numbers, Client.numbers, h.socket, h.passive, h.data]

theorem Client.SameNumbers.sound {c c' : Client} (h : c.SameNumbers c') (hc : c.Sound) :
    c'.Sound := by
  obtain ⟨h1, h2, h3, h4, h5, h6⟩ := h
  constructor
  · rw [h1]
    exact hc.socket
  · rw [h1, h2]
    exact hc.passive
  · rw [h1, h3]
    exact hc.data
  · rw [h3, h4, h5]
    exact hc.idle
  · rw [h3, h4, h5]
    exact hc.busy
  · rw [Client.Awaits, h2, h3, h4, h6]
    exact hc.shared

/-- What is open is a client's or in the rest, and the client's sockets are in order. -/
structure Session.Sole (rest : Set Int) (s : Session) : Prop where
  sound : s.client.Sound
  world : s.world.Shares rest s.client.numbers

structure Unmoved (s s' : Session) : Prop where
  client : s.client.SameNumbers s'.client
  world : SameSocks s.world s'.world

theorem Unmoved.sole {rest : Set Int} {s s' : Session} (h : Unmoved s s') (hs : s.Sole rest) :
    s'.Sole rest := by
  refine ⟨h.client.sound hs.sound, ?_⟩
  rw [h.client.numbers]
  exact hs.world.same h.world

theorem Unmoved.of_world (c : Client) {w w' : World} (h : SameSocks w w') :
    Unmoved ⟨c, w⟩ ⟨c, w'⟩ := ⟨.refl c, h⟩

theorem Unmoved.emit (s : Session) (e : Event) :
    Unmoved s { s with world := s.world.emit s.client.conn e } :=
  ⟨.refl s.client, .of_same rfl rfl rfl⟩

theorem writeReply_unmoved (code : Nat) (msg : Str) (s : Session) :
    Unmoved s (writeReply code msg s).2 := by
  refine ⟨?_, writeReply_keeps sameSocks_replies code msg s⟩
  rw [writeReply_client]
  exact .refl s.client

section Sole

variable {rest : Set Int}

theorem Session.Sole.isOpen {s : Session} (h : s.Sole rest) {fd : Int} (hfd : fd ∈ s.client.numbers) :
    s.world.socks fd ≠ none := by
  have hopen : fd ∈ s.world.openNumbers := (h.world.share.held fd).mpr (.inl hfd)
  exact Option.isSome_iff_ne_none.mp hopen

theorem Session.Sole.new {s : Session} (h : s.Sole rest) {fd : Int} (hpos : 0 ≤ fd)
    (hfd : s.world.socks fd = none) : fd ≠ s.client.socket ∧ fd ≠ s.client.passiveSocket := by
  constructor
  · intro he
    exact h.isOpen ⟨hpos, .inl he⟩ hfd
  · intro he
    exact h.isOpen ⟨hpos, .inr (.inl he)⟩ hfd

theorem closeDataSocket_shares {mine : Set Int} {s : Session} (h : s.world.Shares rest mine)
    (hd : s.client.dataNumber ⊆ mine) :
    (closeDataSocket s).2.world.Shares rest (mine \ s.client.dataNumber) := by
  have hrun : (closeDataSocket s).2.world =
      if 0 ≤ s.client.dataSocket ∧ s.client.dataSocket ≠ s.client.passiveSocket
      then (netCloseBlocking s.client.dataSocket s.world).2 else s.world := by
    simp +instances only [closeDataSocket, bind_run, client_run, ite_run, os_run, pure_run]
    split <;> rfl
  rw [hrun]
  exact h.closedIf fun hc => hd ⟨hc, rfl⟩

theorem closePassiveSocket_shares {mine : Set Int} {s : Session} (h : s.world.Shares rest mine)
    (hd : s.client.passiveNumber ⊆ mine) :
    (closePassiveSocket s).2.world.Shares rest (mine \ s.client.passiveNumber) := by
  have hrun : (closePassiveSocket s).2.world = if 0 ≤ s.client.passiveSocket
      then (netCloseBlocking s.client.passiveSocket s.world).2 else s.world := by
    simp +instances only [closePassiveSocket, bind_run, client_run, ite_run, os_run, pure_run,
      update_run]
    split <;> rfl
  rw [hrun]
  exact h.closedIf fun hc => hd ⟨hc, rfl⟩

theorem cleanupDataResources_shares {mine : Set Int} {s : Session} (h : s.world.Shares rest mine)
    (hd : s.client.dataNumber ⊆ mine) :
    (cleanupDataResources s).2.world.Shares rest (mine \ s.client.dataNumber) := by
  have hclose := closeDataSocket_shares h hd
  rw [cleanupDataResources_world]
  simp only [runClientCleanup, bind_run, client_run]
  cases s.client.dataConnectionCleanup with
  | none => exact hclose
  | some cleanup =>
    cases s.client.dataConnectionCallbackArg with
    | none => exact hclose
    | some arg => exact hclose.same (runCleanup_keeps sameSocks_streams.toClosing cleanup trivial _)

theorem Client.dataNumber_subset (c : Client) : c.dataNumber ⊆ c.numbers :=
  fun _ hfd => ⟨hfd.2 ▸ hfd.1.1, .inr (.inr hfd.2)⟩

theorem Client.passiveNumber_subset (c : Client) : c.passiveNumber ⊆ c.numbers :=
  fun _ hfd => ⟨hfd.2 ▸ hfd.1, .inr (.inl hfd.2)⟩

/-- A client that gives up its transfer keeps its other sockets. -/
theorem Session.Sole.released {s : Session} (h : s.Sole rest) :
    (cleanupDataResources s).2.Sole rest := by
  have hc := cleanupDataResources_client s
  have hsound := h.sound
  refine ⟨?_, ?_⟩
  · have hdata : -1 ≠ s.client.socket := by
      have hpos := hsound.socket
      omega
    rw [hc]
    refine ⟨hsound.socket, hsound.passive, hdata, fun _ => ⟨rfl, rfl⟩, fun hcb => absurd rfl hcb,
      fun hpos => ?_⟩
    simp [Client.released] at hpos
  · have hkept : s.client.released.numbers = s.client.numbers \ s.client.dataNumber := by
      ext fd
      have hne := hsound.data
      have hpos := hsound.socket
      simp only [Client.numbers, Client.dataNumber, Client.released, Set.mem_sdiff,
        Set.mem_ofPred_eq]
      omega
    rw [hc, hkept]
    exact cleanupDataResources_shares h.world s.client.dataNumber_subset

/-- A client that is cleaned up leaves no socket open. -/
theorem Session.Sole.left {s : Session} (h : s.Sole rest) :
    (closeSockets s).2.world.Shares rest ∅ := by
  let t : Session := ⟨s.client, (netCloseBlocking s.client.socket s.world).2⟩
  let u : Session := (cleanupDataResources t).2
  have hrun : (closeSockets s).2 = (closePassiveSocket u).2 := rfl
  have hc : u.client = s.client.released := cleanupDataResources_client t
  have hsound := h.sound
  have hpos := hsound.socket
  have ht : t.world.Shares rest (s.client.numbers \ {s.client.socket}) :=
    h.world.closedBlocking ⟨hpos, .inl rfl⟩
  have hu : u.world.Shares rest ((s.client.numbers \ {s.client.socket}) \ s.client.dataNumber) := by
    refine cleanupDataResources_shares ht fun fd hfd => ⟨s.client.dataNumber_subset hfd, ?_⟩
    intro he
    exact hsound.data (hfd.2.symm.trans he)
  have hpassive : u.client.passiveNumber = s.client.passiveNumber := by
    rw [hc]
    rfl
  have hend := closePassiveSocket_shares hu (by
    rw [hpassive]
    refine fun fd hfd => ⟨⟨s.client.passiveNumber_subset hfd, fun he => ?_⟩, fun hd => ?_⟩
    · exact hsound.passive (hfd.2.symm.trans he)
    · exact hd.1.2 (hd.2.symm.trans hfd.2))
  have hnone : ((s.client.numbers \ {s.client.socket}) \ s.client.dataNumber) \
      u.client.passiveNumber = ∅ := by
    rw [hpassive]
    ext fd
    simp only [Client.numbers, Client.dataNumber, Client.passiveNumber, Set.mem_sdiff,
      Set.mem_ofPred_eq, Set.mem_singleton_iff, Set.mem_empty_iff_false, iff_false]
    omega
  rw [hrun, ← hnone]
  exact hend

/-! ## Handlers -/

/-- While no transfer is under way the client's sockets stay its own. -/
structure Steady (rest : Set Int) (s s' : Session) : Prop where
  callback : s'.client.dataCallback = s.client.dataCallback
  sole : s.client.dataCallback = none → s.Sole rest → s'.Sole rest

theorem steady_frame : Frame (Steady rest) where
  refl _ := ⟨rfl, fun _ => id⟩
  trans h h' := ⟨h'.callback.trans h.callback,
    fun hcb hs => h'.sole (h.callback.trans hcb) (h.sole hcb hs)⟩

theorem Unmoved.steady {s s' : Session} (h : Unmoved s s') : Steady rest s s' :=
  ⟨h.client.callback, fun _ => h.sole⟩

theorem Steady.of_world (c : Client) {w w' : World} (h : SameSocks w w') :
    At (Steady rest) c w w' := (Unmoved.of_world c h).steady

theorem Steady.of_client {s : Session} {c : Client} (h : s.client.SameNumbers c) :
    Steady rest s { s with client := c } :=
  Unmoved.steady ⟨h, sameSocks_frame.refl s.world⟩

theorem steady_talks (c : Client) : Talks (At (Steady rest) c) where
  toFrame := frameAt steady_frame c
  answers w a ha := .of_world c (sameSocks_talks.answers w a ha)
  shrink w := .of_world c (sameSocks_talks.shrink w)
  flags w s k f hs hk := .of_world c (sameSocks_talks.flags w s k f hs hk)
  write w s k d n r hs hk := .of_world c (sameSocks_talks.write w s k d n r hs hk)
  bound w s k p hk := .of_world c (sameSocks_talks.bound w s k p hk)
  listening w s k hk := .of_world c (sameSocks_talks.listening w s k hk)
  waits w s b := .of_world c (sameSocks_talks.waits w s b)
  connects w s a := .of_world c (sameSocks_talks.connects w s a)
  received w s k d hk := .of_world c (sameSocks_talks.received w s k d hk)

theorem steady_streams (c : Client) : UsesStreams (At (Steady rest) c) :=
  sameSocks_streams.imp (frameAt steady_frame c) fun _ _ h => .of_world c h

theorem steady_replies : Replies (Steady rest) :=
  .of_sends steady_frame (fun c => (steady_talks c).toSends.mono fun _ _ => trivial)
    fun s _ _ _ => (Unmoved.emit s _).steady

/-- A client that has no transfer may give up its passive socket. -/
theorem closePassiveSocket_steady : Keeps (Steady rest) closePassiveSocket := by
  intro s
  have hc := closePassiveSocket_client s
  have hcb : (closePassiveSocket s).2.client.dataCallback = s.client.dataCallback := by rw [hc]
  refine ⟨hcb, fun hnone h => ?_⟩
  have hsound := h.sound
  obtain ⟨hdata, hcleanup⟩ := hsound.idle hnone
  have hpos := hsound.socket
  have hshares := closePassiveSocket_shares h.world s.client.passiveNumber_subset
  refine ⟨?_, ?_⟩
  · rw [hc]
    refine ⟨hpos, ?_, hsound.data, fun _ => ⟨hdata, hcleanup⟩, fun hbusy => absurd hnone hbusy,
      fun hd => ?_⟩
    · have hne := hsound.passive
      simp only
      split
      · omega
      · exact hne
    · simp only [hdata] at hd
      omega
  · have hkept : (closePassiveSocket s).2.client.numbers =
        s.client.numbers \ s.client.passiveNumber := by
      ext fd
      have hne := hsound.passive
      rw [hc]
      simp only [Client.numbers, Client.passiveNumber, Set.mem_sdiff, Set.mem_ofPred_eq, hdata]
      split
      · omega
      · omega
    rw [hkept]
    exact hshares

theorem netSocket_cases (w : World) :
    ((netSocket w).1 < 0 ∧ Idle w (netSocket w).2) ∨
      (0 ≤ (netSocket w).1 ∧ w.socks (netSocket w).1 = none ∧
        ∃ w', Idle w w' ∧ (netSocket w).2 = w'.openedSock (netSocket w).1) := by
  rcases netSocket_obtains idle_frame idle_lookups.answers w with hneg | ⟨hpos, hc, v, hv, -, ho⟩
  · exact .inl hneg
  · exact .inr ⟨hpos, hc, v, hv, ho⟩

theorem ftpPasv_opened {s : Session} (h : s.Sole rest) (hcb : s.client.dataCallback = none)
    (hneg : s.client.passiveSocket < 0) :
    Session.Sole rest
      ⟨{ s.client with passiveSocket := (netSocket s.world).1 }, (netSocket s.world).2⟩ := by
  have hsound := h.sound
  obtain ⟨hdata, hcleanup⟩ := hsound.idle hcb
  have hpos := hsound.socket
  have hnumbers : ∀ fd, Client.numbers { s.client with passiveSocket := fd } =
      {x | 0 ≤ x ∧ (x = s.client.socket ∨ x = fd)} := by
    intro fd
    ext x
    simp only [Client.numbers, Set.mem_ofPred_eq, hdata]
    omega
  have hsound' : ∀ fd, fd ≠ s.client.socket →
      Client.Sound { s.client with passiveSocket := fd } := fun fd hne =>
    ⟨hpos, hne, hsound.data, fun _ => ⟨hdata, hcleanup⟩, fun hbusy => absurd hcb hbusy,
      fun hd => absurd hd (by simp [hdata])⟩
  rcases netSocket_cases s.world with ⟨hr, hw⟩ | ⟨hr, hclosed, w, hw, ho⟩
  · refine ⟨hsound' _ (by omega), ?_⟩
    have hsame : Client.numbers { s.client with passiveSocket := (netSocket s.world).1 } =
        s.client.numbers := by
      rw [hnumbers]
      ext x
      simp only [Client.numbers, Set.mem_ofPred_eq, hdata]
      omega
    rw [hsame]
    exact h.world.same hw.sameSocks
  · refine ⟨hsound' _ (h.new hr hclosed).1, ?_⟩
    have hopen := h.world.openedIdle hw hclosed
    rw [← ho] at hopen
    have hsame : Client.numbers { s.client with passiveSocket := (netSocket s.world).1 } =
        insert (netSocket s.world).1 s.client.numbers := by
      rw [hnumbers]
      ext x
      simp only [Client.numbers, Set.mem_insert_iff, Set.mem_ofPred_eq, hdata]
      omega
    rw [hsame]
    exact hopen

theorem listenPassive_steady (fd : Int) : Keeps (Steady rest) (listenPassive fd) := by
  have hF : Frame (Steady rest) := steady_frame
  have hr : Replies (Steady rest) := steady_replies
  have hclose : ∀ msg, Keeps (Steady rest) (do
      closePassiveSocket
      writeReply 520 msg) := fun msg =>
    .bind hF closePassiveSocket_steady fun _ => writeReply_keeps hr _ _
  refine .bind hF (os_keeps fun c => setBlocking_keeps (steady_talks c).toSends trivial _) fun _ =>
    .bind hF (fun s => Steady.of_world s.client (.of_same rfl rfl rfl)) fun port =>
    .bind hF (os_keeps fun c => netBind_keeps (steady_talks c) _ _) fun _ => .ite (hclose _) ?_
  refine .bind hF (os_keeps fun c => netListen_keeps (steady_talks c) _) fun _ => .ite (hclose _) ?_
  exact .bind hF (os_keeps fun c => netGethostip_keeps (steady_talks c).toFrame
    (steady_talks c).answers) fun _ => writeReply_keeps hr _ _

theorem ftpPasv_steady (arg : Str) : Keeps (Steady rest) (ftpPasv arg) := by
  intro s
  let u := (closePassiveSocket s).2
  let r := netSocket u.world
  let t : Session := ⟨{ u.client with passiveSocket := r.1 }, r.2⟩
  have hu : Steady rest s u := closePassiveSocket_steady s
  have hneg : u.client.passiveSocket < 0 := closePassiveSocket_lt s
  have ht : Steady rest u t := ⟨rfl, fun hcb hsole => ftpPasv_opened hsole hcb hneg⟩
  rw [ftpPasv_run]
  refine steady_frame.trans (steady_frame.trans hu ht) ?_
  simp only
  split
  · exact writeReply_keeps steady_replies _ _ t
  · exact listenPassive_steady _ t

theorem steady_quiet : QuietUse (Steady rest) where
  toReplies := steady_replies
  paths c := (steady_streams c).toUsesPaths
  devices c := (sameSocks_devices.imp (frameAt steady_frame c) fun _ _ h => .of_world c h).mounts
  statics s _ _ _ _ := .of_world s.client (.of_same rfl rfl rfl)
  type _ _ := .of_client ⟨rfl, rfl, rfl, rfl, rfl, rfl⟩
  pending _ _ := .of_client ⟨rfl, rfl, rfl, rfl, rfl, rfl⟩
  auth _ := .of_client ⟨rfl, rfl, rfl, rfl, rfl, rfl⟩
  cwd _ _ := .of_client ⟨rfl, rfl, rfl, rfl, rfl, rfl⟩
  marker _ _ := .of_client ⟨rfl, rfl, rfl, rfl, rfl, rfl⟩
  pasv := ftpPasv_steady
  port := ftpPort_closes steady_replies closePassiveSocket_steady fun _ _ =>
    .of_client ⟨rfl, rfl, rfl, rfl, rfl, rfl⟩
  rein := ftpRein_closes steady_replies closePassiveSocket_steady fun _ =>
    .of_client ⟨rfl, rfl, rfl, rfl, rfl, rfl⟩

/-! ## Transfers that begin -/

/-- How a socket for a transfer is prepared: refused, everything as it was, or ready. -/
theorem prepareSocket_outcome {s : Session} (h : s.Sole rest) (hcb : s.client.dataCallback = none) :
    ((prepareSocket s).1 < 0 ∧ (prepareSocket s).2.client = s.client ∧
        (prepareSocket s).2.Sole rest) ∨
      (0 ≤ (prepareSocket s).1 ∧ (prepareSocket s).2.client.Ready ∧
        (prepareSocket s).2.world.Shares rest (prepareSocket s).2.client.numbers) := by
  have hsound := h.sound
  obtain ⟨hdata, -⟩ := hsound.idle hcb
  have hpos := hsound.socket
  have hrun : prepareSocket s = if 0 ≤ s.client.passiveSocket
      then prepareDataConnectionPassive s else prepareDataConnectionActive s := by
    simp +instances only [prepareSocket, bind_run, client_run, ite_run]
  rw [hrun]
  by_cases hp : 0 ≤ s.client.passiveSocket
  · rw [if_pos hp]
    refine .inr ⟨le_rfl, ⟨hpos, hsound.passive, hsound.passive, hp, ?_⟩, ?_⟩
    · exact iff_of_true rfl hp
    · have hsame : Client.numbers { s.client with dataSocket := s.client.passiveSocket } =
          s.client.numbers := by
        ext fd
        simp only [Client.numbers, Set.mem_ofPred_eq, hdata]
        omega
      have hworld := h.world
      rw [← hsame] at hworld
      exact hworld
  · let a := netSocket s.world
    let b := setBlocking a.1 false a.2
    let n := netBind a.1 SRC_PORT b.2
    have hactive : prepareDataConnectionActive s =
        if a.1 < 0 then (a.1, ⟨s.client, a.2⟩)
        else if n.1 < 0 then (n.1, ⟨s.client, (netClose a.1 n.2).2⟩)
        else (0, ⟨{ s.client with dataSocket := a.1 }, n.2⟩) := prepareDataConnectionActive_run s
    rw [if_neg hp, hactive]
    rcases netSocket_cases s.world with ⟨hneg, hw⟩ | ⟨hfd, hclosed, w, hw, ho⟩
    · rw [if_pos hneg]
      exact .inl ⟨hneg, rfl, (Unmoved.of_world s.client hw.sameSocks).sole h⟩
    · change 0 ≤ a.1 at hfd
      obtain ⟨hsocket, -⟩ := h.new hfd hclosed
      have hnew : a.1 ∉ s.client.numbers := fun hmem => h.isOpen hmem hclosed
      have hopen : a.2.Shares rest (insert a.1 s.client.numbers) := by
        have hs := h.world.openedIdle hw hclosed
        rwa [← ho] at hs
      have hused : SameSocks a.2 n.2 := sameSocks_frame.trans
        (setBlocking_keeps sameSocks_talks.toSends trivial false a.2)
        (netBind_keeps sameSocks_talks a.1 SRC_PORT b.2)
      have hbound := hopen.same hused
      rw [if_neg (not_lt.mpr hfd)]
      split
      · rename_i hneg
        have hback : insert a.1 s.client.numbers \ {a.1} = s.client.numbers := by
          rw [Set.insert_sdiff_of_mem _ (Set.mem_singleton a.1)]
          exact Set.sdiff_singleton_eq_self hnew
        have hclose := hbound.closed (Set.mem_insert a.1 s.client.numbers)
        rw [hback] at hclose
        exact .inl ⟨hneg, rfl, hsound, hclose⟩
      · refine .inr ⟨le_rfl, ⟨hpos, hsound.passive, hsocket, hfd, ?_⟩, ?_⟩
        · exact iff_of_false (by simp only; omega) hp
        · have hsame : Client.numbers { s.client with dataSocket := a.1 } =
              insert a.1 s.client.numbers := by
            ext fd
            simp only [Client.numbers, Set.mem_insert_iff, Set.mem_ofPred_eq, hdata]
            omega
          have hworld := hbound
          rw [← hsame] at hworld
          exact hworld

/-- A program begun while no transfer is under way leaves the client's sockets its own. -/
def Lasting (rest : Set Int) {α : Type} (m : Ses α) : Prop :=
  ∀ s : Session, s.client.dataCallback = none → s.Sole rest → (m s).2.Sole rest

section Lasting

variable {α β : Type}

theorem Lasting.of_steady {m : Ses α} (h : Keeps (Steady rest) m) : Lasting rest m :=
  fun s hcb hs => (h s).sole hcb hs

theorem Lasting.after {m : Ses α} {f : α → Ses β} (hm : Keeps (Steady rest) m)
    (hf : ∀ a, Lasting rest (f a)) : Lasting rest (m >>= f) := fun s hcb hs =>
  hf _ _ ((hm s).callback.trans hcb) ((hm s).sole hcb hs)

theorem Lasting.before {m : Ses α} {f : α → Ses β} (hm : Lasting rest m)
    (hf : ∀ a, Keeps Unmoved (f a)) : Lasting rest (m >>= f) := fun s hcb hs =>
  (hf _ _).sole (hm s hcb hs)

theorem Lasting.ite {c : Prop} [Decidable c] {m k : Ses α} (hm : Lasting rest m)
    (hk : Lasting rest k) : Lasting rest (if c then m else k) := by
  split
  · exact hm
  · exact hk

end Lasting

theorem prepareDataConnection_lasting (callback : Callback) (arg : Nat) (cleanup : Cleanup) :
    Lasting rest (prepareDataConnection callback arg cleanup) := by
  intro s hcb hs
  rw [prepareDataConnection_run]
  have hreply := writeReply_unmoved 150 "Transferring data.".toList s
  generalize writeReply 150 "Transferring data.".toList s = r at hreply ⊢
  have hr := hreply.sole hs
  have hout := prepareSocket_outcome hr (hreply.client.callback.trans hcb)
  simp only
  generalize prepareSocket r.2 = q at hout ⊢
  split
  · exact hr
  · split
    · rename_i hneg
      rcases hout with ⟨-, -, hq⟩ | ⟨hpos, -⟩
      · exact ((writeReply_unmoved _ _ _).sole ((Unmoved.emit q.2 _).sole hq))
      · exact absurd hneg (not_lt.mpr hpos)
    · rename_i hpos
      rcases hout with ⟨hneg, -⟩ | ⟨-, hready, hshares⟩
      · exact absurd hneg hpos
      · have hnow : SameSocks q.2.world (gettime q.2.world).2 :=
          gettime_keeps sameSocks_frame sameSocks_talks.answers q.2.world
        refine ⟨⟨hready.socket, hready.passive, hready.data, ?_, ?_, ?_⟩, hshares.same hnow⟩
        · intro hnone
          simp [startTransfer] at hnone
        · intro _
          exact ⟨hready.valid, by simp [startTransfer]⟩
        · intro _
          rw [Client.Awaits]
          simpa [startTransfer] using hready.shared

theorem transfer_lasting (callback : Callback) (arg : Nat) (cleanup : Cleanup) :
    Lasting rest (transfer callback arg cleanup) := by
  refine .before (prepareDataConnection_lasting callback arg cleanup) fun result s => ?_
  by_cases hr : result < 0
  · simp +instances only [if_pos hr, bind_run, os_run, pure_run]
    exact .of_world s.client (runCleanup_keeps sameSocks_streams.toClosing cleanup trivial s.world)
  · simp only [if_neg hr, pure_run]
    exact ⟨.refl s.client, sameSocks_frame.refl s.world⟩

theorem seekToMarker_lasting (f : Nat) {proceed : Ses Int} (hp : Lasting rest proceed) :
    Lasting rest (seekToMarker f proceed) := by
  have hF : Frame (Steady rest) := steady_frame
  have hmarker : Keeps (Steady rest) (update fun c => { c with restartMarker := 0 }) :=
    update_keeps fun s => steady_quiet.marker s 0
  refine .after (.gets hF _) fun c => .after ?_ fun _ => .ite (.after hmarker fun _ => hp) ?_
  · refine os_keeps fun d => .ite ?_ (.pure (frameAt hF d) _)
    exact lseek_keeps (steady_streams d).toStreaming trivial _
  · refine .of_steady <| .bind hF (.gets hF _) fun _ => .bind hF ?_ fun _ =>
      .bind hF hmarker fun _ => .bind hF (.gets hF _) fun _ => writeReply_keeps steady_replies _ _
    exact os_keeps fun d => runCleanup_keeps (steady_streams d).toClosing _ trivial

theorem client_steady : Keeps (Steady rest) client := .gets steady_frame _

theorem listDirectory_lasting (callback : Callback) (path : Str) :
    Lasting rest (listDirectory callback path) := by
  refine .after client_steady fun c =>
    .after (os_keeps fun d => vrtDiropen_keeps (steady_streams d) _ _) fun o => ?_
  cases o with
  | none => exact .of_steady (replyErrno_keeps steady_replies)
  | some dir => exact transfer_lasting _ _ _

theorem ftpRetr_lasting (path : Str) : Lasting rest (ftpRetr path) := by
  refine .after client_steady fun c =>
    .after (os_keeps fun d => vrtFopen_keeps (steady_streams d) _ _ _) fun o => ?_
  cases o with
  | none => exact .of_steady (replyErrno_keeps steady_replies)
  | some f => exact seekToMarker_lasting f (transfer_lasting _ _ _)

theorem storOrAppend_lasting (f : Option Nat) : Lasting rest (storOrAppend f) := by
  cases f with
  | none => exact .of_steady (replyErrno_keeps steady_replies)
  | some f => exact transfer_lasting _ _ _

theorem ftpStor_lasting (path : Str) : Lasting rest (ftpStor path) := by
  refine .after client_steady fun c =>
    .after (os_keeps fun d => vrtFopen_keeps (steady_streams d) _ _ _) fun o => ?_
  cases o with
  | none =>
    exact .after (update_keeps fun s => steady_quiet.marker s 0) fun _ => storOrAppend_lasting none
  | some f => exact seekToMarker_lasting f (storOrAppend_lasting _)

theorem ftpAppe_lasting (path : Str) : Lasting rest (ftpAppe path) :=
  .after client_steady fun _ =>
    .after (os_keeps fun d => vrtFopen_keeps (steady_streams d) _ _ _) fun o =>
      storOrAppend_lasting o

theorem lasting_handlers : Concludes (Steady rest) (Lasting rest) where
  toQuietUse := steady_quiet
  quiet := .of_steady
  list := listDirectory_lasting
  retr := ftpRetr_lasting
  stor := ftpStor_lasting
  appe := ftpAppe_lasting
  load path := .of_steady <| ftpSiteLoad_keeps steady_replies steady_streams
    (fun s => Steady.of_world s.client (.of_same rfl rfl rfl)) path

theorem processCommand_lasting (cmdLine : Str) : Lasting rest (processCommand cmdLine) := by
  intro s hcb hs
  by_cases he : cmdLine = []
  · subst he
    exact hs
  · rw [processCommand_run he]
    exact lasting_handlers.dispatch _ cmdLine _ hcb ((Unmoved.emit s _).sole hs)

/-! ## Turns -/

def KeepsSole (rest : Set Int) (s s' : Session) : Prop := s.Sole rest → s'.Sole rest

theorem keepsSole_frame : Frame (KeepsSole rest) where
  refl _ := id
  trans h h' hs := h' (h hs)

theorem keepsSole_reads : ReadsLines (KeepsSole rest) where
  toFrame := keepsSole_frame
  heard s len := by
    have hread : SameSocks s.world (netRead s.client.socket len s.world).2 :=
      netRead_keeps sameSocks_talks s.client.socket len s.world
    exact fun hs => (Unmoved.emit ⟨s.client, _⟩ _).sole ((Unmoved.of_world s.client hread).sole hs)
  event s e _ := (Unmoved.emit s e).sole
  buffer s _ _ := Unmoved.sole ⟨⟨rfl, rfl, rfl, rfl, rfl, rfl⟩, sameSocks_frame.refl s.world⟩
  command cmdLine s hcb := processCommand_lasting cmdLine s hcb

/-- A client whose connection is accepted has the new socket for its own, and the passive one
still. -/
theorem Session.Sole.accepts {s : Session} (h : s.Sole rest) (hcb : s.client.dataCallback ≠ none)
    (hc : s.client.dataConnectionConnected = false) (hp : 0 ≤ s.client.passiveSocket) {fd : Int}
    {w w' : World} (hfd : 0 ≤ fd) (hclosed : s.world.socks fd = none) (hw : Idle s.world w)
    (ho : w' = w.openedSock fd) : Session.Sole rest ⟨s.client.joined fd, w'⟩ := by
  have hsound := h.sound
  obtain ⟨hdata, hcleanup⟩ := hsound.busy hcb
  obtain ⟨hsocket, hpassive⟩ := h.new hfd hclosed
  have hshared : s.client.dataSocket = s.client.passiveSocket :=
    (hsound.shared hdata).mpr ⟨hcb, hc, hp⟩
  refine ⟨⟨hsound.socket, hsound.passive, hsocket, fun hnone => absurd hnone hcb,
    fun _ => ⟨hfd, hcleanup⟩, fun _ => ?_⟩, ?_⟩
  · refine iff_of_false hpassive fun hawaits => ?_
    simp [Client.Awaits, Client.joined] at hawaits
  · have hsame : (s.client.joined fd).numbers = insert fd s.client.numbers := by
      ext x
      simp only [Client.numbers, Client.joined, Set.mem_insert_iff, Set.mem_ofPred_eq]
      omega
    rw [hsame, ho]
    exact h.world.openedIdle hw hclosed

theorem dataStep_sole {s : Session} (h : s.Sole rest) (hcb : s.client.dataCallback ≠ none) :
    (dataStep s).2.Sole rest := by
  have hsound := h.sound
  have hnow : Keeps SameSocks gettime := gettime_keeps sameSocks_frame sameSocks_talks.answers
  by_cases hc : s.client.dataConnectionConnected = true
  · have hrun : dataStep s = driveTransfer s := by
      simp only [dataStep, bind_run, client_run, hc, if_true]
    rw [hrun]
    simp only [driveTransfer, bind_run, client_run]
    cases s.client.dataCallback with
    | none => exact h
    | some callback =>
      cases s.client.dataConnectionCallbackArg with
      | none => exact h
      | some arg =>
        have hw : SameSocks s.world (runCallback callback s.client.dataSocket arg s.world).2 :=
          runCallback_keeps (sameSocks_talks.carries callback _) sameSocks_streams.toStreaming
            trivial _
        exact (Unmoved.of_world s.client hw).sole h
  · have hc' : s.client.dataConnectionConnected = false := by simpa using hc
    have hrun : dataStep s = awaitDataConnection s := by
      simp only [dataStep, bind_run, client_run, hc', Bool.false_eq_true, if_false]
    rw [hrun, awaitDataConnection_run hc']
    simp only
    split
    · rename_i hp
      rcases netAccept_cases s.client.passiveSocket s.world with
        ⟨hneg, hw⟩ | ⟨hfd, hclosed, w, hw, ho⟩
      · rw [if_neg (not_le.mpr hneg)]
        have hall := sameSocks_frame.trans hw.sameSocks (hnow _)
        exact (Unmoved.of_world s.client hall).sole h
      · rw [if_pos hfd]
        exact h.accepts hcb hc' hp hfd hclosed hw ho
    · rename_i hp
      have hw : SameSocks s.world (netConnect s.client.dataSocket s.client.address s.world).2 :=
        netConnect_keeps sameSocks_talks _ _ _
      split
      · have hstays : Session.Sole rest ⟨s.client, (netConnect s.client.dataSocket
            s.client.address s.world).2⟩ := (Unmoved.of_world s.client hw).sole h
        refine ⟨⟨hsound.socket, hsound.passive, hsound.data, fun hnone => absurd hnone hcb,
          hsound.busy, fun hpos => ?_⟩, hstays.world⟩
        refine iff_of_false (fun he => hp ?_) fun hawaits => hp hawaits.2.2
        have hd : 0 ≤ s.client.dataSocket := hpos
        have he' : s.client.dataSocket = s.client.passiveSocket := he
        exact he' ▸ hd
      · have hall := sameSocks_frame.trans hw (hnow _)
        exact (Unmoved.of_world s.client hall).sole h

theorem dataEvents_sole {s : Session} (h : s.Sole rest) (hcb : s.client.dataCallback ≠ none) :
    (dataEvents s).2.Sole rest := by
  have hstep := dataStep_sole h hcb
  rw [dataEvents_run]
  simp only
  split
  · unfold transferDone
    rw [ite_run]
    split
    · exact (writeReply_unmoved _ _ _).sole hstep.released
    · exact (writeReply_unmoved _ _ _).sole hstep.released
  · exact hstep

theorem turn_sole (c : Client) (w : World) (h : Session.Sole rest ⟨c, w⟩) :
    (turn c ⟨c, w⟩).2.Sole rest := by
  unfold turn
  rw [ite_run]
  split
  · rename_i hcb
    exact dataEvents_sole h (Option.isSome_iff_ne_none.mp hcb)
  · exact controlEvents_keeps keepsSole_reads ⟨c, w⟩ h

end Sole

end Ftpii
