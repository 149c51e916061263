import Ftpii.Handles
import Mathlib.Data.Finset.Card
import Mathlib.Data.Fintype.Basic
set_option autoImplicit false

/-!
The client table: what each step of the system does to it, the invariant it
keeps, and how an invariant of every client follows from its own turns.
-/

namespace Ftpii
open StateProgram Prog

/-! ## What sessions and calls leave to others -/

/-- Descriptors are numbered on, and no connection's events change. -/
structure Grows (w w' : World) : Prop where
  nextSock : w.nextSock ≤ w'.nextSock
  hist : w'.hist = w.hist

theorem grows_frame : Frame Grows where
  refl _ := ⟨le_rfl, rfl⟩
  trans h h' := ⟨h.1.trans h'.1, h'.2.trans h.2⟩

theorem grows_sockets : UsesSockets Grows where
  toFrame := grows_frame
  answers _ _ _ := ⟨le_rfl, rfl⟩
  shrink _ := ⟨le_rfl, rfl⟩
  flags _ _ _ _ _ _ := ⟨le_rfl, rfl⟩
  write _ _ _ _ _ _ _ _ := ⟨le_rfl, rfl⟩
  opened _ _ _ := ⟨Nat.le_succ _, rfl⟩
  bound _ _ _ _ _ := ⟨le_rfl, rfl⟩
  listening _ _ _ _ := ⟨le_rfl, rfl⟩
  closed _ _ := ⟨le_rfl, rfl⟩
  waits _ _ _ := ⟨le_rfl, rfl⟩
  connects _ _ _ := ⟨le_rfl, rfl⟩
  received _ _ _ _ _ := ⟨le_rfl, rfl⟩

theorem grows_streams : UsesStreams Grows where
  toFrame := grows_frame
  answers _ _ _ := ⟨le_rfl, rfl⟩
  errno _ _ := ⟨le_rfl, rfl⟩
  disk _ _ := ⟨le_rfl, rfl⟩
  renamed _ _ _ := ⟨le_rfl, rfl⟩
  opened _ _ := ⟨le_rfl, rfl⟩
  stream _ _ _ _ _ _ := ⟨le_rfl, rfl⟩
  close _ _ _ _ := ⟨le_rfl, rfl⟩

theorem grows_devices : UsesDevices Grows where
  toFrame := grows_frame
  answers _ _ _ := ⟨le_rfl, rfl⟩
  devices _ _ := ⟨le_rfl, rfl⟩

/-- What a session does to its own client's identity and to other connections. -/
structure Apart (s s' : Session) : Prop where
  conn : s'.client.conn = s.client.conn
  socket : s'.client.socket = s.client.socket
  nextSock : s.world.nextSock ≤ s'.world.nextSock
  hist : ∀ k, k ≠ s.client.conn → s'.world.hist k = s.world.hist k

theorem apart_frame : Frame Apart where
  refl _ := ⟨rfl, rfl, le_rfl, fun _ _ => rfl⟩
  trans h h' := ⟨h'.conn.trans h.conn, h'.socket.trans h.socket, h.nextSock.trans h'.nextSock,
    fun k hk => (h'.hist k (h.conn ▸ hk)).trans (h.hist k hk)⟩

theorem Grows.apart {c : Client} {w w' : World} (h : Grows w w') : Apart ⟨c, w⟩ ⟨c, w'⟩ :=
  ⟨rfl, rfl, h.nextSock, fun _ _ => by rw [h.hist]⟩

theorem apart_update (s : Session) (c : Client) (hc : c.conn = s.client.conn)
    (hs : c.socket = s.client.socket) : Apart s { s with client := c } :=
  ⟨hc, hs, le_rfl, fun _ _ => rfl⟩

theorem apart_emit (s : Session) (e : Event) :
    Apart s { s with world := s.world.emit s.client.conn e } :=
  ⟨rfl, rfl, le_rfl, fun k hk => by simp [World.emit, hk]⟩

theorem apart_sockets (c : Client) : UsesSockets (At Apart c) :=
  grows_sockets.imp (frameAt apart_frame c) fun _ _ h => h.apart

theorem apart_streams (c : Client) : UsesStreams (At Apart c) :=
  grows_streams.imp (frameAt apart_frame c) fun _ _ h => h.apart

theorem apart_devices (c : Client) : UsesDevices (At Apart c) :=
  grows_devices.imp (frameAt apart_frame c) fun _ _ h => h.apart

theorem apart_replies : Replies Apart :=
  .of_sends apart_frame (fun c => (apart_sockets c).toSends.mono fun _ _ => trivial)
    fun s _ _ _ => apart_emit s _

theorem apart_use : HandlerUse Apart where
  toReplies := apart_replies
  sockets := apart_sockets
  streams := apart_streams
  devices c := (apart_devices c).mounts
  unprepared s _ := apart_emit s _
  dataSocket s _ := apart_update s _ rfl rfl
  prepared s _ _ _ _ := apart_update s _ rfl rfl
  statics _ _ _ _ _ := ⟨rfl, rfl, le_rfl, fun _ _ => rfl⟩
  type s _ := apart_update s _ rfl rfl
  pending s _ := apart_update s _ rfl rfl
  passive s _ := apart_update s _ rfl rfl
  address s _ := apart_update s _ rfl rfl

theorem apart_data : DataUse Apart where
  toReplies := apart_replies
  sockets := apart_sockets
  streams c := (apart_streams c).toClosing
  data s _ _ _ _ _ _ := apart_update s _ rfl rfl

theorem processCommand_apart (cmdLine : Str) : Keeps Apart (processCommand cmdLine) :=
  processCommand_keeps
    (apart_use.handled_of (fun s => apart_update s _ rfl rfl) (fun s => apart_update s _ rfl rfl)
      (fun s _ => apart_update s _ rfl rfl) (fun s _ => apart_update s _ rfl rfl) cmdLine)
    fun s _ _ => apart_emit s _

theorem apart_control : ControlUse Apart where
  toFrame := apart_frame
  sockets := apart_sockets
  event s e := apart_emit s e
  buffer s _ _ := apart_update s _ rfl rfl
  command := processCommand_apart

theorem dataEvents_apart : Keeps Apart dataEvents := dataEvents_keeps apart_data

theorem controlEvents_apart : Keeps Apart controlEvents := controlEvents_keeps apart_control.reads

theorem writeReply_apart (code : Nat) (msg : Str) : Keeps Apart (writeReply code msg) :=
  writeReply_keeps apart_replies code msg

theorem closeSockets_grows : Keeps (OnWorld Grows) closeSockets :=
  closeSockets_keeps (releases_onWorld grows_sockets grows_streams) fun _ _ => grows_frame.refl _

/-! ## Operations on the table -/

def Server.withSession (s : Server) (p : Nat) (t : Session) : Server :=
  { s with heap := Function.update s.heap p (some t.client), world := t.world }

def Server.without (s : Server) (i : Fin MAX_CLIENTS) (p : Nat) (w : World) : Server :=
  { s with clients := Function.update s.clients i none, numClients := s.numClients - 1,
           heap := Function.update s.heap p none, world := w }

def Server.entering (s : Server) (i : Fin MAX_CLIENTS) (t : Session) : Server :=
  { s with clients := Function.update s.clients i (some s.nextClient),
           numClients := s.numClients + 1,
           heap := Function.update s.heap s.nextClient (some t.client),
           nextClient := s.nextClient + 1, world := t.world }

theorem withClient_run {α : Type} [Inhabited α] {s : Server} {p : Nat} {c : Client}
    (h : s.heap p = some c) (m : Ses α) :
    withClient p m s = ((m ⟨c, s.world⟩).1, s.withSession p (m ⟨c, s.world⟩).2) := by
  simp only [withClient, h, Server.withSession]

theorem findSlot_eq_some {s : Server} {o : Option Nat} {i : Fin MAX_CLIENTS} (h : s.clients i = o)
    (only : ∀ j, s.clients j = o → j = i) : s.findSlot o = some i := by
  cases hf : s.findSlot o with
  | none =>
    have hn := List.find?_eq_none.mp hf i (List.mem_finRange i)
    simp [h] at hn
  | some j =>
    have hj := List.find?_some hf
    rw [only j (by simpa using hj)]

theorem findSlot_of_exists {s : Server} {o : Option Nat} (h : ∃ i, s.clients i = o) :
    ∃ i, s.findSlot o = some i ∧ s.clients i = o := by
  obtain ⟨i, hi⟩ := h
  cases hf : s.findSlot o with
  | none =>
    have hn := List.find?_eq_none.mp hf i (List.mem_finRange i)
    simp [hi] at hn
  | some j =>
    have hj := List.find?_some hf
    exact ⟨j, rfl, by simpa using hj⟩

def Server.slots (s : Server) : Finset (Fin MAX_CLIENTS) :=
  Finset.univ.filter fun i => (s.clients i).isSome

@[simp] theorem mem_slots {s : Server} {i : Fin MAX_CLIENTS} :
    i ∈ s.slots ↔ (s.clients i).isSome = true := by simp [Server.slots]

/-- The table and the heap agree, and connections are told apart. -/
structure WellFormed (s : Server) : Prop where
  live : ∀ i p, s.clients i = some p → (s.heap p).isSome
  placed : ∀ p, (s.heap p).isSome → ∃ i, s.clients i = some p
  distinct : ∀ i j p, s.clients i = some p → s.clients j = some p → i = j
  fresh : ∀ p, s.nextClient ≤ p → s.heap p = none
  counted : s.numClients.toNat = s.slots.card
  no_fault : s.fault = false
  conn_lt : ∀ p c, s.heap p = some c → c.conn < s.world.nextSock
  conns : ∀ p q c d, s.heap p = some c → s.heap q = some d → c.conn = d.conn → p = q
  quiet : ∀ k, s.world.nextSock ≤ k → s.world.hist k = []

theorem WellFormed.client {s : Server} (h : WellFormed s) {i : Fin MAX_CLIENTS} {p : Nat}
    (hi : s.clients i = some p) : ∃ c, s.heap p = some c := Option.isSome_iff_exists.mp (h.live i p hi)

theorem WellFormed.grow {s : Server} (h : WellFormed s) {w : World} (hw : Grows s.world w)
    (server : Int) (down halted : Bool) :
    WellFormed { s with world := w, server := server, networkDown := down, halted := halted } where
  live := h.live
  placed := h.placed
  distinct := h.distinct
  fresh := h.fresh
  counted := h.counted
  no_fault := h.no_fault
  conn_lt p c hc := (h.conn_lt p c hc).trans_le hw.nextSock
  conns := h.conns
  quiet k hk := by
    have hq := h.quiet k (hw.nextSock.trans hk)
    rwa [← hw.hist] at hq

theorem WellFormed.skip {s : Server} (h : WellFormed s) {w : World} {k : Nat}
    (hk : s.world.nextSock ≤ k) (hs : k < w.nextSock)
    (hist : ∀ j, j ≠ k → w.hist j = s.world.hist j) :
    WellFormed { s with nextClient := s.nextClient + 1, world := w } where
  live := h.live
  placed := h.placed
  distinct := h.distinct
  fresh p hp := h.fresh p (Nat.le_of_succ_le hp)
  counted := h.counted
  no_fault := h.no_fault
  conn_lt p c hc := (h.conn_lt p c hc).trans (by simp only; omega)
  conns := h.conns
  quiet j hj := by
    simp only at hj ⊢
    rw [hist j (by omega)]
    exact h.quiet j (by omega)

/-- A session of one client keeps the table. -/
theorem WellFormed.turn {s : Server} (h : WellFormed s) {p : Nat} {c : Client} {t : Session}
    (hp : s.heap p = some c) (ht : Apart ⟨c, s.world⟩ t) : WellFormed (s.withSession p t) where
  live i q hq := by
    by_cases he : q = p
    · simp [Server.withSession, he]
    · simpa [Server.withSession, he] using h.live i q hq
  placed q hq := by
    by_cases he : q = p
    · exact he ▸ h.placed p (by simp [hp])
    · exact h.placed q (by simpa [Server.withSession, he] using hq)
  distinct := h.distinct
  fresh q hq := by
    have hne : q ≠ p := by
      rintro rfl
      rw [h.fresh q hq] at hp
      contradiction
    simpa [Server.withSession, hne] using h.fresh q hq
  counted := h.counted
  no_fault := h.no_fault
  conn_lt q d hd := by
    by_cases he : q = p
    · subst he
      obtain rfl : t.client = d := by simpa [Server.withSession] using hd
      exact ht.conn ▸ (h.conn_lt q c hp).trans_le ht.nextSock
    · exact (h.conn_lt q d (by simpa [Server.withSession, he] using hd)).trans_le ht.nextSock
  conns q r d e hd he heq := by
    have hback : ∀ {x : Nat} {y : Client}, (s.withSession p t).heap x = some y →
        ∃ z, s.heap x = some z ∧ z.conn = y.conn := by
      intro x y hy
      by_cases hx : x = p
      · subst hx
        obtain rfl : t.client = y := by simpa [Server.withSession] using hy
        exact ⟨c, hp, ht.conn.symm⟩
      · exact ⟨y, by simpa [Server.withSession, hx] using hy, rfl⟩
    obtain ⟨d', hd', hdc⟩ := hback hd
    obtain ⟨e', he', hec⟩ := hback he
    exact h.conns q r d' e' hd' he' (hdc.trans (heq.trans hec.symm))
  quiet k hk := by
    have hs := ht.nextSock
    have hk' : s.world.nextSock ≤ k := hs.trans hk
    have hne : k ≠ c.conn := by
      have hlt := h.conn_lt p c hp
      omega
    exact (ht.hist k hne).trans (h.quiet k hk')

/-- A client that leaves takes its slot and its heap entry with it. -/
theorem WellFormed.leave {s : Server} (h : WellFormed s) {i : Fin MAX_CLIENTS} {p : Nat}
    {w : World} (hi : s.clients i = some p) (hw : Grows s.world w) :
    WellFormed (s.without i p w) where
  live j q hq := by
    have hj : j ≠ i := by
      rintro rfl
      simp [Server.without] at hq
    have hq' : s.clients j = some q := by simpa [Server.without, hj] using hq
    have hne : q ≠ p := by
      rintro rfl
      exact hj (h.distinct j i q hq' hi)
    simpa [Server.without, hne] using h.live j q hq'
  placed q hq := by
    have hne : q ≠ p := by
      rintro rfl
      simp [Server.without] at hq
    obtain ⟨j, hj⟩ := h.placed q (by simpa [Server.without, hne] using hq)
    have hji : j ≠ i := by
      rintro rfl
      rw [hi] at hj
      exact hne (Option.some.inj hj).symm
    exact ⟨j, by simpa [Server.without, hji] using hj⟩
  distinct j k q hj hk := by
    have hne : ∀ {x}, (s.without i p w).clients x = some q → s.clients x = some q := by
      intro x hx
      by_cases hxi : x = i
      · subst hxi
        simp [Server.without] at hx
      · simpa [Server.without, hxi] using hx
    exact h.distinct j k q (hne hj) (hne hk)
  fresh q hq := by
    by_cases he : q = p
    · simp [Server.without, he]
    · simpa [Server.without, he] using h.fresh q hq
  counted := by
    have hmem : i ∈ s.slots := by simp [hi]
    have hslots : (s.without i p w).slots = s.slots.erase i := by
      ext j
      rw [mem_slots, Finset.mem_erase, mem_slots]
      by_cases hj : j = i <;> simp [Server.without, hj]
    have hpos := Finset.card_pos.mpr ⟨i, hmem⟩
    have hc := h.counted
    rw [hslots, Finset.card_erase_of_mem hmem]
    simp only [Server.without]
    have hle : (1 : UInt8) ≤ s.numClients := by
      rw [UInt8.le_iff_toNat_le]
      simp
      omega
    rw [UInt8.toNat_sub_of_le _ _ hle, hc]
    rfl
  no_fault := h.no_fault
  conn_lt q d hd := by
    have hne : q ≠ p := by
      rintro rfl
      simp [Server.without] at hd
    exact (h.conn_lt q d (by simpa [Server.without, hne] using hd)).trans_le hw.nextSock
  conns q r d e hd he heq := by
    have hback : ∀ {x : Nat} {y : Client}, (s.without i p w).heap x = some y → s.heap x = some y := by
      intro x y hy
      by_cases hx : x = p
      · subst hx
        simp [Server.without] at hy
      · simpa [Server.without, hx] using hy
    exact h.conns q r d e (hback hd) (hback he) heq
  quiet k hk := by
    have hq := h.quiet k (hw.nextSock.trans hk)
    rwa [← hw.hist] at hq

/-- A client that enters takes a free slot and a fresh heap entry. -/
theorem WellFormed.enter {s : Server} (h : WellFormed s) {i : Fin MAX_CLIENTS} {t : Session}
    (hi : s.clients i = none) (hlt : s.world.nextSock ≤ t.client.conn)
    (hs : t.client.conn < t.world.nextSock)
    (hist : ∀ k, k ≠ t.client.conn → t.world.hist k = s.world.hist k) :
    WellFormed (s.entering i t) where
  live j q hq := by
    by_cases hj : j = i
    · subst hj
      obtain rfl : s.nextClient = q := by simpa [Server.entering] using hq
      simp [Server.entering]
    · have hq' : s.clients j = some q := by simpa [Server.entering, hj] using hq
      by_cases hqn : q = s.nextClient
      · simp [Server.entering, hqn]
      · simpa [Server.entering, hqn] using h.live j q hq'
  placed q hq := by
    by_cases hqn : q = s.nextClient
    · exact ⟨i, by simp [Server.entering, hqn]⟩
    · obtain ⟨j, hj⟩ := h.placed q (by simpa [Server.entering, hqn] using hq)
      have hji : j ≠ i := by
        rintro rfl
        rw [hi] at hj
        contradiction
      exact ⟨j, by simpa [Server.entering, hji] using hj⟩
  distinct j k q hj hk := by
    have hnew : ∀ {x}, s.clients x = some q → q ≠ s.nextClient := by
      rintro x hx rfl
      have hl := h.live x _ hx
      rw [h.fresh _ le_rfl] at hl
      contradiction
    by_cases hji : j = i <;> by_cases hki : k = i
    · rw [hji, hki]
    · obtain rfl : s.nextClient = q := by simpa [Server.entering, hji] using hj
      have hk' : s.clients k = some s.nextClient := by simpa [Server.entering, hki] using hk
      exact absurd rfl (hnew hk')
    · obtain rfl : s.nextClient = q := by simpa [Server.entering, hki] using hk
      have hj' : s.clients j = some s.nextClient := by simpa [Server.entering, hji] using hj
      exact absurd rfl (hnew hj')
    · exact h.distinct j k q (by simpa [Server.entering, hji] using hj)
        (by simpa [Server.entering, hki] using hk)
  fresh q hq := by
    simp only [Server.entering] at hq ⊢
    have hne : q ≠ s.nextClient := by omega
    simpa [hne] using h.fresh q (by omega)
  counted := by
    have hmem : i ∉ s.slots := by simp [hi]
    have hslots : (s.entering i t).slots = insert i s.slots := by
      ext j
      rw [mem_slots, Finset.mem_insert, mem_slots]
      by_cases hj : j = i <;> simp [Server.entering, hj]
    have hle := Finset.card_le_univ (insert i s.slots)
    have hc := h.counted
    rw [hslots, Finset.card_insert_of_notMem hmem] at *
    simp only [Server.entering, UInt8.toNat_add, hc]
    have h5 : Fintype.card (Fin MAX_CLIENTS) = 5 := rfl
    have h1 : (1 : UInt8).toNat = 1 := rfl
    omega
  no_fault := h.no_fault
  conn_lt q d hd := by
    by_cases hqn : q = s.nextClient
    · obtain rfl : t.client = d := by simpa [Server.entering, hqn] using hd
      exact hs
    · have hlt' := h.conn_lt q d (by simpa [Server.entering, hqn] using hd)
      simp only [Server.entering]
      omega
  conns q r d e hd he heq := by
    have hold : ∀ {x : Nat} {y : Client}, x ≠ s.nextClient →
        (s.entering i t).heap x = some y → s.heap x = some y ∧ y.conn ≠ t.client.conn := by
      intro x y hx hy
      have hy' : s.heap x = some y := by simpa [Server.entering, hx] using hy
      have hlt' := h.conn_lt x y hy'
      exact ⟨hy', by omega⟩
    have hnew : ∀ {y : Client}, (s.entering i t).heap s.nextClient = some y → y = t.client := by
      intro y hy
      simpa [Server.entering] using hy.symm
    by_cases hqn : q = s.nextClient <;> by_cases hrn : r = s.nextClient
    · rw [hqn, hrn]
    · subst hqn
      rw [hnew hd] at heq
      exact absurd heq.symm (hold hrn he).2
    · subst hrn
      rw [hnew he] at heq
      exact absurd heq (hold hqn hd).2
    · exact h.conns q r d e (hold hqn hd).1 (hold hrn he).1 heq
  quiet k hk := by
    simp only [Server.entering] at hk ⊢
    rw [hist k (by omega)]
    exact h.quiet k (by omega)

/-! ## Turns of a client -/

def turn (c : Client) : Ses Bool := if c.dataCallback.isSome then dataEvents else controlEvents

theorem turn_apart (c : Client) : Keeps Apart (turn c) := .ite dataEvents_apart controlEvents_apart

theorem cleanupClient_run {s : Server} (h : WellFormed s) {i : Fin MAX_CLIENTS} {p : Nat}
    {c : Client} (hi : s.clients i = some p) (hp : s.heap p = some c) :
    (cleanupClient p s).2 = s.without i p (closeSockets ⟨c, s.world⟩).2.world := by
  have hf : (s.withSession p (closeSockets ⟨c, s.world⟩).2).findSlot (some p) = some i :=
    findSlot_eq_some hi fun j hj => h.distinct j i p hj hi
  simp only [cleanupClient, bind_run, withClient_run hp, replaceSlot, modify_run, hf, free]
  simp [Server.without, Server.withSession]

theorem withSession_self {s : Server} {p : Nat} {c : Client} (h : s.heap p = some c) :
    s.withSession p ⟨c, s.world⟩ = s := by
  simp [Server.withSession, ← h]

/-- The turn of a slot: nothing, a session, or a session after which the client leaves. -/
theorem processSlot_cases {s : Server} (h : WellFormed s) (i : Fin MAX_CLIENTS) :
    (s.clients i = none ∧ (processSlot i s).2 = s) ∨
      ∃ p c, s.clients i = some p ∧ s.heap p = some c ∧
        (((turn c ⟨c, s.world⟩).1 = false ∧
            (processSlot i s).2 = s.withSession p (turn c ⟨c, s.world⟩).2) ∨
          ((turn c ⟨c, s.world⟩).1 = true ∧
            (processSlot i s).2 = (s.withSession p (turn c ⟨c, s.world⟩).2).without i p
              (closeSockets (turn c ⟨c, s.world⟩).2).2.world)) := by
  cases hi : s.clients i with
  | none => exact .inl ⟨rfl, by simp [processSlot, hi]⟩
  | some p =>
    obtain ⟨c, hp⟩ := h.client hi
    refine .inr ⟨p, c, rfl, hp, ?_⟩
    have hcb : withClient p (Prog.gets fun t : Session => t.client.dataCallback) s =
        (c.dataCallback, s) := by
      rw [withClient_run hp, gets_run, withSession_self hp]
    have hrun : (processSlot i s).2 = ((do
        let close ← withClient p (turn c)
        if close then cleanupClient p else pure ()) s).2 := by
      simp only [processSlot, bind_run, get_run, hi, hcb, turn]
      split <;> rfl
    have hwf := h.turn hp (turn_apart c ⟨c, s.world⟩)
    have hheap : (s.withSession p (turn c ⟨c, s.world⟩).2).heap p =
        some (turn c ⟨c, s.world⟩).2.client := by simp [Server.withSession]
    rw [hrun]
    simp only [bind_run, withClient_run hp, ite_run, pure_run]
    cases hr : (turn c ⟨c, s.world⟩).1 with
    | false => exact .inl ⟨rfl, rfl⟩
    | true => exact .inr ⟨rfl, cleanupClient_run hwf hi hheap⟩

theorem processSlot_wellFormed {s : Server} (h : WellFormed s) (i : Fin MAX_CLIENTS) :
    WellFormed (processSlot i s).2 := by
  rcases processSlot_cases h i with ⟨-, he⟩ | ⟨p, c, hi, hp, ⟨-, he⟩ | ⟨-, he⟩⟩
  · rw [he]
    exact h
  · rw [he]
    exact h.turn hp (turn_apart c _)
  · rw [he]
    exact (h.turn hp (turn_apart c _)).leave hi (closeSockets_grows _)

/-! ## Accepting -/

/-- Outcomes were consumed, devices looked at and waits noted; sockets, files and events are as
before. -/
def Idle (w w' : World) : Prop :=
  ∃ a e d r l, w' = { w with answers := a, errno := e, devices := d, resetFlag := r,
                             log := w.log ++ l } ∧ ∀ c ∈ l, ∃ s b, c = .waits s b

theorem idle_frame : Frame Idle where
  refl w := ⟨w.answers, w.errno, w.devices, w.resetFlag, [], by simp, by simp⟩
  trans := by
    rintro _ _ _ ⟨a, e, d, r, l, rfl, hl⟩ ⟨a', e', d', r', l', rfl, hl'⟩
    refine ⟨a', e', d', r', l ++ l', by simp, fun c hc => ?_⟩
    exact (List.mem_append.mp hc).elim (hl c) (hl' c)

theorem idle_answers (w : World) (a : Answers) : Idle w { w with answers := a } :=
  ⟨a, w.errno, w.devices, w.resetFlag, [], by simp, by simp⟩

theorem idle_lookups : Lookups Idle where
  toFrame := idle_frame
  answers w a _ := idle_answers w a
  errno w e := ⟨w.answers, e, w.devices, w.resetFlag, [], by simp, by simp⟩

theorem idle_devices : UsesDevices Idle where
  toFrame := idle_frame
  answers w a _ := idle_answers w a
  devices w d := ⟨w.answers, w.errno, d, w.resetFlag, [], by simp, by simp⟩

theorem idle_reset (w : World) : Idle w { w with resetFlag := true } :=
  ⟨w.answers, w.errno, w.devices, true, [], by simp, by simp⟩

theorem Idle.grows {w w' : World} (h : Idle w w') : Grows w w' := by
  obtain ⟨a, e, d, r, l, rfl, -⟩ := h
  exact ⟨le_rfl, rfl⟩

theorem Idle.socks {w w' : World} (h : Idle w w') : w'.socks = w.socks := by
  obtain ⟨a, e, d, r, l, rfl, -⟩ := h
  rfl

theorem Idle.nextSock {w w' : World} (h : Idle w w') : w'.nextSock = w.nextSock := by
  obtain ⟨a, e, d, r, l, rfl, -⟩ := h
  rfl

def World.openedSock (w : World) (fd : Int) : World :=
  ({ w with nextSock := w.nextSock + 1 }.setSock fd (some { id := w.nextSock })).record
    (.opened fd w.nextSock)

theorem openSock_cases (fd : Int) (w : World) :
    openSock fd w = (-ENFILE, w) ∨ w.socks fd = none ∧ openSock fd w = (fd, w.openedSock fd) := by
  unfold openSock
  split
  · exact .inl rfl
  · rename_i h
    exact .inr ⟨h, rfl⟩

theorem waitOn_idle (s : Int) : Keeps Idle (waitOn s) := by
  intro w
  unfold waitOn
  split
  · exact idle_frame.refl w
  · rename_i k _
    refine ⟨w.answers, w.errno, w.devices, w.resetFlag, [.waits s k.blocking], rfl, fun c hc => ?_⟩
    exact ⟨s, k.blocking, by simpa using hc⟩

@[simp] theorem waitOn_socks (s : Int) (w : World) : (waitOn s w).2.socks = w.socks := by
  unfold waitOn
  split <;> rfl

section Obtaining

variable {P : World → World → Prop} (hF : Frame P)
  (ha : ∀ (w : World) a, w.answers.Drawn a → P w { w with answers := a })

include hF ha

theorem netSocket_obtains (w : World) :
    ((netSocket w).1 < 0 ∧ P w (netSocket w).2) ∨
      (0 ≤ (netSocket w).1 ∧ w.socks (netSocket w).1 = none ∧
        ∃ v, P w v ∧ v.socks = w.socks ∧ (netSocket w).2 = v.openedSock (netSocket w).1) := by
  have hpop : P w (popNet w).2 := popNet_keeps hF ha w
  simp only [netSocket, bind_run, ite_run, pure_run]
  split
  · rename_i hneg
    exact .inl ⟨hneg, hpop⟩
  · rename_i hpos
    rcases openSock_cases (popNet w).1.code (popNet w).2 with ho | ⟨hc, ho⟩
    · rw [ho]
      exact .inl ⟨by simp [ENFILE], hpop⟩
    · rw [ho]
      rw [popNet_socks] at hc
      exact .inr ⟨not_lt.mp hpos, hc, _, hpop, popNet_socks w, rfl⟩

theorem netAccept_obtains {s : Int} (hs : Keeps P (waitOn s)) (w : World) :
    ((netAccept s w).1.1 < 0 ∧ P w (netAccept s w).2) ∨
      (0 ≤ (netAccept s w).1.1 ∧ w.socks (netAccept s w).1.1 = none ∧
        ∃ v, P w v ∧ v.socks = w.socks ∧
          (netAccept s w).2 = v.openedSock (netAccept s w).1.1) := by
  have hwait : P w (waitOn s w).2 := hs w
  cases hk : (waitOn s w).1 with
  | none =>
    have hrun : netAccept s w = ((-EBADF, {}), (waitOn s w).2) := by simp [netAccept, hk]
    rw [hrun]
    exact .inl ⟨by simp [EBADF], hwait⟩
  | some k =>
    have hrun : (netAccept s w).1.1 = (netSocket (waitOn s w).2).1 ∧
        (netAccept s w).2 = (netSocket (waitOn s w).2).2 := by
      simp +instances only [netAccept, netSocket, bind_run, hk, ite_run, pure_run]
      split
      · exact ⟨rfl, rfl⟩
      · exact ⟨rfl, rfl⟩
    rw [hrun.1, hrun.2]
    rcases netSocket_obtains hF ha (waitOn s w).2 with ⟨hneg, hp⟩ | ⟨hpos, hc, v, hv, hsocks, ho⟩
    · exact .inl ⟨hneg, hF.trans hwait hp⟩
    · rw [waitOn_socks] at hc hsocks
      exact .inr ⟨hpos, hc, v, hF.trans hwait hv, hsocks, ho⟩

end Obtaining

theorem netAccept_cases (s : Int) (w : World) :
    ((netAccept s w).1.1 < 0 ∧ Idle w (netAccept s w).2) ∨
      (0 ≤ (netAccept s w).1.1 ∧ w.socks (netAccept s w).1.1 = none ∧
        ∃ w', Idle w w' ∧ (netAccept s w).2 = w'.openedSock (netAccept s w).1.1) := by
  rcases netAccept_obtains idle_frame idle_lookups.answers (waitOn_idle s) w with
    hneg | ⟨hpos, hc, v, hv, -, ho⟩
  · exact .inl hneg
  · exact .inr ⟨hpos, hc, v, hv, ho⟩

/-- A peer that was accepted but gets no client. -/
def turnedAway (w : World) (peer : Int) : World := (netClose peer w).2

/-- What is left of a peer that could not be greeted. -/
def ungreeted (w : World) (peer : Int) (address : SockAddr) : World :=
  (netCloseBlocking peer (writeReply 220 "ftpii".toList ⟨newClient w peer address, w⟩).2.world).2

def greeted (w : World) (peer : Int) (address : SockAddr) : Session :=
  (writeReply 220 "ftpii".toList ⟨newClient w peer address, w⟩).2

theorem admitClient_cases {s : Server} (h : WellFormed s) (hfree : ∃ i, s.clients i = none)
    (peer : Int) (address : SockAddr) :
    ((writeReply 220 "ftpii".toList ⟨newClient s.world peer address, s.world⟩).1 < 0 ∧
        (admitClient peer address s).2 =
          { s with nextClient := s.nextClient + 1, world := ungreeted s.world peer address }) ∨
      ∃ i, s.clients i = none ∧
        (admitClient peer address s).2 = s.entering i (greeted s.world peer address) := by
  have hfresh := h.fresh s.nextClient le_rfl
  let c := newClient s.world peer address
  let s₁ : Server := { s with heap := Function.update s.heap s.nextClient (some c),
                              nextClient := s.nextClient + 1 }
  have halloc : allocClient peer address s = (s.nextClient, s₁) := rfl
  have hheap : s₁.heap s.nextClient = some c := by simp [s₁]
  have hworld : s₁.world = s.world := rfl
  simp only [admitClient, bind_run, halloc, withClient_run hheap, hworld, ite_run]
  split
  · rename_i hneg
    refine .inl ⟨hneg, ?_⟩
    have hback : Function.update s.heap s.nextClient none = s.heap := by
      rw [← hfresh, Function.update_eq_self]
    simp [sys, free, Server.withSession, s₁, hback, ungreeted, c]
  · obtain ⟨i, hf, hi⟩ := findSlot_of_exists hfree
    refine .inr ⟨i, hi, ?_⟩
    have hf' : (s₁.withSession s.nextClient
        (writeReply 220 "ftpii".toList ⟨c, s.world⟩).2).findSlot none = some i := hf
    simp only [replaceSlot, modify_run, hf']
    simp [Server.withSession, Server.entering, s₁, greeted, c]

theorem exists_free_slot {s : Server} (h : WellFormed s) (hn : s.numClients.toNat ≠ MAX_CLIENTS) :
    ∃ i, s.clients i = none := by
  by_contra hno
  push Not at hno
  have hall : s.slots = Finset.univ := by
    ext i
    simp [Option.isSome_iff_ne_none, hno i]
  rw [h.counted, hall] at hn
  exact hn rfl

/-- One round of accepting: no peer, one turned away, one that left, or a new client. P is what happens
before the peer is accepted and P' what happens before it is greeted. -/
theorem acceptStep_obtains {P P' : World → World → Prop} (hP : Lookups P) (hP' : Lookups P')
    {s : Server} (h : WellFormed s) {server : Int} (hs : Keeps P (waitOn server)) :
    (P s.world (netAccept server s.world).2 ∧
        (acceptStep server s).2 = { s with world := (netAccept server s.world).2 }) ∨
      ∃ peer address w w', 0 ≤ peer ∧ s.world.socks peer = none ∧ P s.world w ∧
        P' (w.openedSock peer) w' ∧
        ((acceptStep server s).2 = { s with world := turnedAway w' peer } ∨
          ((writeReply 220 "ftpii".toList ⟨newClient w' peer address, w'⟩).1 < 0 ∧
            (acceptStep server s).2 =
              { s with nextClient := s.nextClient + 1, world := ungreeted w' peer address }) ∨
          ∃ i, s.clients i = none ∧ (acceptStep server s).2 = s.entering i (greeted w' peer address)) := by
  have hzoom : sys (netAccept server) s =
      ((netAccept server s.world).1, { s with world := (netAccept server s.world).2 }) := rfl
  rcases netAccept_obtains hP.toFrame hP.answers hs s.world with
    ⟨hneg, hi⟩ | ⟨hpos, hclosed, w, hw, -, hopen⟩
  · refine .inl ⟨hi, ?_⟩
    by_cases hagain : (netAccept server s.world).1.1 = -EAGAIN
    · simp [acceptStep, hzoom, hagain]
    · simp [acceptStep, hzoom, hagain, hneg]
  · refine .inr ⟨(netAccept server s.world).1.1, (netAccept server s.world).1.2, w, ?_⟩
    have hno : (netAccept server s.world).1.1 ≠ -EAGAIN := by
      simp only [EAGAIN]
      omega
    have hgrow : Grows s.world (netAccept server s.world).2 :=
      netAccept_keeps grows_sockets server s.world
    have hstay : P' (w.openedSock (netAccept server s.world).1.1) (netAccept server s.world).2 := by
      rw [← hopen]
      exact hP'.refl _
    by_cases hn : s.numClients.toNat = MAX_CLIENTS
    · refine ⟨_, hpos, hclosed, hw, hstay, .inl ?_⟩
      simp [acceptStep, hno, Int.not_lt.mpr hpos, hn, sys, turnedAway]
    · have hm : P' (w.openedSock (netAccept server s.world).1.1)
          (malloc (netAccept server s.world).2).2 := hP'.trans hstay (malloc_keeps hP' _)
      refine ⟨_, hpos, hclosed, hw, hm, ?_⟩
      cases hok : (malloc (netAccept server s.world).2).1 with
      | false =>
        refine .inl ?_
        simp [acceptStep, hno, Int.not_lt.mpr hpos, hn, sys, turnedAway, hok]
      | true =>
        let s₂ : Server := { s with world := (malloc (netAccept server s.world).2).2 }
        have hrun : (acceptStep server s).2 = (admitClient (netAccept server s.world).1.1
            (netAccept server s.world).1.2 s₂).2 := by
          simp [acceptStep, hno, Int.not_lt.mpr hpos, hn, sys, hok, s₂]
        have hmalloc := malloc_keeps ⟨grows_frame, grows_sockets.answers, grows_streams.errno⟩
          (netAccept server s.world).2
        have hwf : WellFormed s₂ :=
          h.grow (grows_frame.trans hgrow hmalloc) s.server s.networkDown s.halted
        rw [hrun]
        exact .inr (admitClient_cases hwf (exists_free_slot hwf hn) _ _)

theorem acceptStep_cases {s : Server} (h : WellFormed s) (server : Int) :
    (Idle s.world (netAccept server s.world).2 ∧
        (acceptStep server s).2 = { s with world := (netAccept server s.world).2 }) ∨
      ∃ peer address w w', 0 ≤ peer ∧ s.world.socks peer = none ∧ Idle s.world w ∧
        Idle (w.openedSock peer) w' ∧
        ((acceptStep server s).2 = { s with world := turnedAway w' peer } ∨
          ((writeReply 220 "ftpii".toList ⟨newClient w' peer address, w'⟩).1 < 0 ∧
            (acceptStep server s).2 =
              { s with nextClient := s.nextClient + 1, world := ungreeted w' peer address }) ∨
          ∃ i, s.clients i = none ∧ (acceptStep server s).2 = s.entering i (greeted w' peer address)) :=
  acceptStep_obtains idle_lookups idle_lookups h (waitOn_idle server)

/-- The id of a new client is the one its descriptor was given. -/
theorem newClient_conn {w w' : World} {peer : Int} (h : Idle (w.openedSock peer) w')
    (address : SockAddr) : (newClient w' peer address).conn = w.nextSock := by
  simp [newClient, h.socks, World.openedSock, World.record, World.setSock]

theorem greeted_apart (w : World) (peer : Int) (address : SockAddr) :
    Apart ⟨newClient w peer address, w⟩ (greeted w peer address) :=
  writeReply_apart _ _ _

/-! ## The network and the end -/

/-- Sockets were opened, set up, closed or all invalidated. -/
def Network (w w' : World) : Prop :=
  ∀ P : World → World → Prop, UsesSockets P → (∀ w, P w (netDeinit w).2) → P w w'

theorem network_sockets : UsesSockets Network where
  refl w _ hP _ := hP.refl w
  trans h h' P hP hd := hP.trans (h P hP hd) (h' P hP hd)
  answers w a ha _ hP _ := hP.answers w a ha
  shrink w _ hP _ := hP.shrink w
  flags w s k f hs hk _ hP _ := hP.flags w s k f hs hk
  write w s k d n r hs hk _ hP _ := hP.write w s k d n r hs hk
  opened w s hs _ hP _ := hP.opened w s hs
  bound w s k p hk _ hP _ := hP.bound w s k p hk
  listening w s k hk _ hP _ := hP.listening w s k hk
  closed w s _ hP _ := hP.closed w s
  waits w s b _ hP _ := hP.waits w s b
  connects w s a _ hP _ := hP.connects w s a
  received w s k d hk _ hP _ := hP.received w s k d hk

theorem Network.grows {w w' : World} (h : Network w w') : Grows w w' :=
  h Grows grows_sockets fun _ => ⟨le_rfl, rfl⟩

section Renewal

variable {P : World → World → Prop} (hF : Frame P)
  (ha : ∀ (w : World) a, w.answers.Drawn a → P w { w with answers := a })

include hF ha

theorem waitForNetInit_keeps (result : Int) : Keeps P (waitForNetInit result) := by
  have hreset := checkResetSynchronous_keeps hF ha
  refine .bind hF (netFuel_keeps hF) fun _ => .iterate hF (fun _ => ?_) _ _
  exact .bind hF hreset fun _ => .ite (.pure hF _) <|
    .bind hF (netInit_keeps hF ha) fun _ => .pure hF _

theorem waitForHostip_keeps : Keeps P waitForHostip := by
  refine .bind hF (netFuel_keeps hF) fun _ => .iterate hF (fun _ => ?_) _ _
  exact .bind hF (netGethostip_keeps hF ha) fun _ =>
    .bind hF (checkResetSynchronous_keeps hF ha) fun _ => .pure hF _

theorem initialiseNetwork_keeps (hd : ∀ w, P w (netDeinit w).2) : Keeps P initialiseNetwork := by
  have hreset := checkResetSynchronous_keeps hF ha
  refine .bind hF (netFuel_keeps hF) fun _ => .bind hF (.iterate hF (fun result => ?_) _ _) fun _ =>
    .ite (.bind hF (waitForHostip_keeps hF ha) fun _ => .pure hF _) (.pure hF _)
  exact .bind hF hreset fun _ => .ite
    (.bind hF hd fun _ => .map (waitForNetInit_keeps hF ha result)) (.pure hF _)

end Renewal

/-- Bringing the network up again changes the sockets, the listener and no client. -/
theorem reinitialise_cases (s : Server) :
    ∃ w server down halted, Network s.world w ∧
      (reinitialise s).2 =
        { s with world := w, server := server, networkDown := down, halted := halted } := by
  have hclose := netClose_keeps network_sockets s.server s.world
  have hinit := initialiseNetwork_keeps network_sockets.toFrame network_sockets.answers
    (fun w _ _ hd => hd w) (netClose s.server s.world).2
  have hcreate := createServer_keeps network_sockets PORT
    (initialiseNetwork (netClose s.server s.world).2).2
  have hall := network_sockets.trans (network_sockets.trans hclose hinit) hcreate
  simp only [reinitialise, bind_run, get_run, sys, zoom_run]
  cases (createServer PORT (initialiseNetwork (netClose s.server s.world).2).2).1 with
  | none => exact ⟨_, s.server, s.networkDown, true, hall, rfl⟩
  | some server => exact ⟨_, server, server < 0, s.halted, hall, rfl⟩

def dismiss : Ses Int := writeReply 421 "Service not available, closing control connection.".toList

theorem dismiss_apart : Keeps Apart dismiss := writeReply_apart _ _

theorem cleanupSlot_cases {s : Server} (h : WellFormed s) (i : Fin MAX_CLIENTS) :
    (s.clients i = none ∧ (cleanupSlot i s).2 = s) ∨
      ∃ p c, s.clients i = some p ∧ s.heap p = some c ∧
        (cleanupSlot i s).2 = (s.withSession p (dismiss ⟨c, s.world⟩).2).without i p
          (closeSockets (dismiss ⟨c, s.world⟩).2).2.world := by
  cases hi : s.clients i with
  | none => exact .inl ⟨rfl, by simp [cleanupSlot, hi]⟩
  | some p =>
    obtain ⟨c, hp⟩ := h.client hi
    refine .inr ⟨p, c, rfl, hp, ?_⟩
    have hwf := h.turn hp (dismiss_apart ⟨c, s.world⟩)
    have hheap : (s.withSession p (dismiss ⟨c, s.world⟩).2).heap p =
        some (dismiss ⟨c, s.world⟩).2.client := by simp [Server.withSession]
    have hrun : (cleanupSlot i s).2 =
        (cleanupClient p (s.withSession p (dismiss ⟨c, s.world⟩).2)).2 := by
      simp only [cleanupSlot, bind_run, get_run, hi, withClient_run hp, dismiss]
    rw [hrun]
    exact cleanupClient_run hwf hi hheap

theorem sys_run {α : Type} (m : Os α) (s : Server) :
    sys m s = ((m s.world).1, { s with world := (m s.world).2 }) := rfl

theorem unmounts_run (ps : List Partition) (s : Server) : ∃ w, Idle s.world w ∧
    (Prog.forEach ps (fun p => do
      let _ ← sys (unmount (some p))
      pure ()) s).2 = { s with world := w } := by
  induction ps generalizing s with
  | nil => exact ⟨s.world, idle_frame.refl s.world, rfl⟩
  | cons p ps ih =>
    have hp : Idle s.world (unmount (some p) s.world).2 :=
      unmountSome_keeps (p := p) idle_devices.drives trivial s.world
    obtain ⟨w, hw, he⟩ := ih { s with world := (unmount (some p) s.world).2 }
    exact ⟨w, idle_frame.trans hp hw, he⟩

/-- At its end the program cleans up its clients and closes the listener. -/
theorem shutdown_run (s : Server) :
    ∃ w, Idle (netClose (cleanupFtp s).2.server (cleanupFtp s).2.world).2 w ∧
      (shutdown s).2 = { (cleanupFtp s).2 with world := w, halted := true } := by
  let t := (cleanupFtp s).2
  obtain ⟨w, hw, he⟩ := unmounts_run VIRTUAL_PARTITIONS
    { t with world := (netClose t.server t.world).2 }
  have hstop : Idle w (dvdStop w).2 := dvdStop_keeps idle_devices.drives w
  refine ⟨(dvdStop w).2, idle_frame.trans hw hstop, ?_⟩
  simp only [shutdown, bind_run, get_run, sys_run, modify_run]
  rw [he]

end Ftpii
