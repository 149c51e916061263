import Ftpii.Parties
set_option autoImplicit false

/-!
Passive mode over runs of any number of clients: which port PASV binds and tells, and what the
PORT parser reads in the numbers it tells.
-/

namespace Ftpii
open StateProgram Prog Scanf

/-! ## The numbers of the reply -/

def portNumbers (ip port : Nat) : List Nat :=
  [ip / 2 ^ 24 % 256, ip / 2 ^ 16 % 256, ip / 2 ^ 8 % 256, ip % 256, port / 256 % 256, port % 256]

theorem scanU3List_commas {ns : List Nat} (h : ∀ n ∈ ns, n < 1000) (hne : ns ≠ []) :
    scanU3List (ns.length - 1) (commas ns) = some ns := by
  induction ns with
  | nil => contradiction
  | cons n ns ih =>
    have hn := h n (by simp)
    cases ns with
    | nil =>
      have hscan := scanU3_decimal hn (.inl rfl)
      rw [List.append_nil] at hscan
      simp [commas, scanU3List, hscan]
    | cons m ns =>
      have hscan := scanU3_decimal hn (t := ',' :: commas (m :: ns)) (.inr ⟨_, rfl⟩)
      have hrest := ih (fun k hk => h k (by simp [hk])) (by simp)
      have he : commas (n :: m :: ns) = decimal n ++ ',' :: commas (m :: ns) := by simp [commas]
      simp only [List.length_cons, Nat.add_sub_cancel] at hrest ⊢
      simp [scanU3List, he, hscan, hrest]

theorem scan_portNumbers (ip port : Nat) :
    scanU3List 5 (commas (portNumbers ip port)) = some (portNumbers ip port) := by
  have hsmall : ∀ n ∈ portNumbers ip port, n < 1000 := by
    intro n hn
    simp only [portNumbers, List.mem_cons, List.not_mem_nil, or_false] at hn
    omega
  exact scanU3List_commas hsmall (by simp [portNumbers])

theorem ftpPort_portNumbers {ip port : Nat} (hi : ip < 2 ^ 32) (hp : port < 2 ^ 16) (u : Session) :
    (ftpPort (commas (portNumbers ip port)) u).2.client.address = { ip := ip, port := port } := by
  have hscan := scan_portNumbers ip port
  have haton : inetAton (ip / 2 ^ 24 % 256) (ip / 2 ^ 16 % 256) (ip / 2 ^ 8 % 256) (ip % 256) =
      some ip := by
    have hle : ip / 2 ^ 24 % 256 ≤ 255 ∧ ip / 2 ^ 16 % 256 ≤ 255 ∧ ip / 2 ^ 8 % 256 ≤ 255 ∧
        ip % 256 ≤ 255 := by omega
    simp only [inetAton, if_pos hle]
    congr 1
    omega
  have hport : port / 256 % 256 % 256 * 256 + port % 256 % 256 = port := by omega
  unfold ftpPort
  rw [hscan]
  simp only [portNumbers, haton, hport]
  rfl

/-! ## What PASV leaves -/

def KeepsBindings (w w' : World) : Prop :=
  ∀ fd k, w.socks fd = some k →
    ∃ k', w'.socks fd = some k' ∧ k'.port = k.port ∧ k'.listening = k.listening

theorem keepsBindings_sends : Sends (fun _ => True) KeepsBindings where
  refl _ _ k hk := ⟨k, hk, rfl, rfl⟩
  trans h h' fd k hk := by
    obtain ⟨k', hk', hp, hl⟩ := h fd k hk
    obtain ⟨k'', hk'', hp', hl'⟩ := h' fd k' hk'
    exact ⟨k'', hk'', hp'.trans hp, hl'.trans hl⟩
  answers _ _ _ _ k hk := ⟨k, hk, rfl, rfl⟩
  shrink _ _ k hk := ⟨k, hk, rfl, rfl⟩
  flags w s j f _ hj fd k hk := by
    by_cases hs : fd = s
    · subst hs
      obtain rfl : k = j := by simpa [hk] using hj
      exact ⟨{ k with flags := f }, by simp [World.setSock], rfl, rfl⟩
    · exact ⟨k, by simpa [World.setSock, hs] using hk, rfl, rfl⟩
  write _ _ _ _ _ _ _ _ _ k hk := ⟨k, hk, rfl, rfl⟩

theorem writeReply_bindings (code : Nat) (msg : Str) :
    Keeps (OnWorld KeepsBindings) (writeReply code msg) := by
  have hr : Replies (OnWorld KeepsBindings) := .of_sends (OnWorld.frame keepsBindings_sends.toFrame)
    (fun _ => keepsBindings_sends.mono fun _ _ => trivial)
    fun _ _ _ _ _ k hk => ⟨k, hk, rfl, rfl⟩
  exact writeReply_keeps hr code msg

theorem popNet_fst (w : World) :
    (popNet w).1 = w.answers.net.head?.getD { code := -EAGAIN } := by
  unfold popNet
  cases w.answers.net <;> rfl

theorem popNet_net (w : World) : (popNet w).2.answers.net = w.answers.net.tail := by
  unfold popNet
  cases h : w.answers.net <;> simp [h]

theorem popFcntl_net (w : World) : (popFcntl w).2.answers.net = w.answers.net := by
  unfold popFcntl
  split <;> rfl

theorem setBlocking_net (s : Int) (b : Bool) (w : World) :
    (setBlocking s b w).2.answers.net = w.answers.net := by
  have hget : (netFcntlGet s w).2.answers.net = w.answers.net := by
    unfold netFcntlGet
    split
    · rfl
    · exact popFcntl_net w
  have hset : ∀ flags w, (netFcntlSet s flags w).2.answers.net = w.answers.net := by
    intro flags w
    unfold netFcntlSet
    split
    · rfl
    · simp only
      split
      · exact popFcntl_net w
      · exact popFcntl_net w
  simp only [setBlocking, bind_run, ite_run, pure_run]
  split
  · exact hget
  · exact (hset _ _).trans hget

theorem closePassiveSocket_samePort : Keeps (OnWorld SamePort) closePassiveSocket :=
  closePassiveSocket_keeps (fun _ => samePort_sockets) (fun _ _ => rfl) (OnWorld.frame samePort_frame)

theorem closePassiveSocket_net (s : Session) :
    (closePassiveSocket s).2.world.answers.net = s.world.answers.net := by
  simp +instances only [closePassiveSocket, bind_run, client_run, ite_run, pure_run]
  split
  · exact setBlocking_net _ _ _
  · rfl

theorem netSocket_some {w : World} (h : 0 ≤ (netSocket w).1) :
    (∃ k, (netSocket w).2.socks (netSocket w).1 = some k) ∧
      (netSocket w).2.answers.net = w.answers.net.tail := by
  rw [← popNet_net w]
  simp only [netSocket, bind_run, ite_run, pure_run] at h ⊢
  split at h
  · omega
  · rename_i hneg
    simp only [if_neg hneg]
    rcases openSock_cases (popNet w).1.code (popNet w).2 with he | ⟨-, he⟩
    · rw [he] at h
      simp [ENFILE] at h
    · rw [he]
      have hopen := Function.update_self (popNet w).1.code
        (some { id := (popNet w).2.nextSock : Sock }) (popNet w).2.socks
      exact ⟨⟨_, hopen⟩, rfl⟩

theorem netBind_some {fd : Int} {port : Nat} {w : World} {k : Sock}
    (hk : w.socks fd = some k) (h : 0 ≤ (netBind fd port w).1) :
    (netBind fd port w).2.socks fd = some { k with port := port } ∧
      (netBind fd port w).2.answers.net = w.answers.net.tail := by
  rw [← popNet_net w]
  simp only [netBind, bind_run, ite_run, pure_run, modify_run] at h ⊢
  split at h
  · omega
  · rename_i hneg
    simp [if_neg hneg, hk, World.setSock]

theorem netListen_some {fd : Int} {w : World} {k : Sock}
    (hk : w.socks fd = some k) (h : 0 ≤ (netListen fd w).1) :
    (netListen fd w).2.socks fd = some { k with listening := true } ∧
      (netListen fd w).2.answers.net = w.answers.net.tail := by
  rw [← popNet_net w]
  simp only [netListen, bind_run, ite_run, pure_run, modify_run] at h ⊢
  split at h
  · omega
  · rename_i hneg
    simp [if_neg hneg, hk, World.setSock]

/-- PASV once it has a socket. -/
def listenPassive (passiveSocket : Int) : Ses Int := do
  let _ ← os (setBlocking passiveSocket false)
  let port ← os nextPassivePort
  let result ← os (netBind passiveSocket port)
  if result < 0 then do
    closePassiveSocket
    writeReply 520 "Unable to bind listening socket.".toList
  else do
    let result ← os (netListen passiveSocket)
    if result < 0 then do
      closePassiveSocket
      writeReply 520 "Unable to listen on socket.".toList
    else do
      let ip ← os netGethostip
      writeReply 227 (passiveReply ip port)

theorem ftpPasv_run (rest : Str) (s : Session) :
    ftpPasv rest s =
      let u := (closePassiveSocket s).2
      let r := netSocket u.world
      let t : Session := ⟨{ u.client with passiveSocket := r.1 }, r.2⟩
      if r.1 < 0 then writeReply 520 "Unable to create listening socket.".toList t
      else listenPassive r.1 t := by
  have he : ftpPasv rest = (do
      closePassiveSocket
      let passiveSocket ← os netSocket
      update fun c => { c with passiveSocket := passiveSocket }
      if passiveSocket < 0 then writeReply 520 "Unable to create listening socket.".toList
      else listenPassive passiveSocket) := rfl
  rw [he]
  simp +instances only [bind_run, os_run, update_run, ite_run]

def World.netAnswer (w : World) (n : Nat) : NetAnswer :=
  w.answers.net[n]?.getD ({ code := -EAGAIN } : NetAnswer)

/-- The 32-bit address net_gethostip gives PASV after its three other network calls. -/
def hostAddress (w : World) : Nat := (w.netAnswer 3).addr.ip % 2 ^ 32

def ListensOn (t : Session) (port : Nat) : Prop :=
  ∃ k, t.world.socks t.client.passiveSocket = some k ∧ k.listening = true ∧ k.port = port

/-- The last reply is this one. -/
def Session.Replied (t : Session) (code : Nat) (text : Str) : Prop :=
  ∃ h r, t.story = h ++ [.reply code text r]

theorem writeReply_replied (code : Nat) (msg : Str) (s : Session) :
    (writeReply code msg s).2.Replied code msg := ⟨_, _, writeReply_story code msg s⟩

theorem Session.Replied.unique {t : Session} {code code' : Nat} {text text' : Str}
    (h : t.Replied code text) (h' : t.Replied code' text') : code = code' ∧ text = text' := by
  obtain ⟨es, r, he⟩ := h
  obtain ⟨es', r', he'⟩ := h'
  have hlast := (List.append_inj' (he.symm.trans he') rfl).2
  simp only [List.cons.injEq, Event.reply.injEq, and_true] at hlast
  exact ⟨hlast.1, hlast.2.1⟩

theorem passiveReply_mod (ip port : Nat) :
    passiveReply ip port = passiveReply (ip % 2 ^ 32) port := by
  have h1 : ip / 2 ^ 24 % 256 = ip % 2 ^ 32 / 2 ^ 24 % 256 := by omega
  have h2 : ip / 2 ^ 16 % 256 = ip % 2 ^ 32 / 2 ^ 16 % 256 := by omega
  have h3 : ip / 2 ^ 8 % 256 = ip % 2 ^ 32 / 2 ^ 8 % 256 := by omega
  have h4 : ip % 256 = ip % 2 ^ 32 % 256 := by omega
  rw [passiveReply_eq, passiveReply_eq, h1, h2, h3, h4]

theorem listenPassive_run (fd : Int) (s : Session) :
    listenPassive fd s =
      let b := setBlocking fd false s.world
      let p := nextPassivePort b.2
      let n := netBind fd p.1 p.2
      let l := netListen fd n.2
      let h := netGethostip l.2
      if n.1 < 0 then (do
        closePassiveSocket
        writeReply 520 "Unable to bind listening socket.".toList) ⟨s.client, n.2⟩
      else if l.1 < 0 then (do
        closePassiveSocket
        writeReply 520 "Unable to listen on socket.".toList) ⟨s.client, l.2⟩
      else writeReply 227 (passiveReply h.1 p.1) ⟨s.client, h.2⟩ := by
  simp +instances only [listenPassive, bind_run, os_run, ite_run]

theorem listenPassive_cases {fd : Int} {s : Session} {k : Sock} (hfd : s.client.passiveSocket = fd)
    (hk : s.world.socks fd = some k) :
    (∃ msg, (listenPassive fd s).2.Replied 520 msg) ∨
      (listenPassive fd s).2.Replied 227
        (passiveReply (s.world.netAnswer 2).addr.ip s.world.passivePort.toNat) ∧
      ListensOn (listenPassive fd s).2 s.world.passivePort.toNat := by
  let b := setBlocking fd false s.world
  let w := (nextPassivePort b.2).2
  let port := (nextPassivePort b.2).1
  let n := netBind fd port w
  let l := netListen fd n.2
  let h := netGethostip l.2
  rw [listenPassive_run]
  simp only
  split
  · exact .inl ⟨_, writeReply_replied _ _ _⟩
  split
  · exact .inl ⟨_, writeReply_replied _ _ _⟩
  rename_i hbind hlisten
  have hport : port = s.world.passivePort.toNat := by
    have hsame : b.2.passivePort = s.world.passivePort :=
      setBlocking_keeps (samePort_sockets.toSends) trivial false s.world
    exact congrArg UInt16.toNat hsame
  obtain ⟨kb, hkb, -, -⟩ := setBlocking_keeps keepsBindings_sends trivial false s.world fd k hk
  obtain ⟨hkn, hnn⟩ := netBind_some (w := w) hkb (not_lt.mp hbind)
  obtain ⟨hkl, hnl⟩ := netListen_some hkn (not_lt.mp hlisten)
  have hnet : l.2.answers.net = s.world.answers.net.tail.tail := by
    rw [hnl, hnn]
    exact congrArg (fun as : List NetAnswer => as.tail.tail) (setBlocking_net _ _ _)
  have hip : h.1 = (s.world.netAnswer 2).addr.ip := by
    simp only [h, netGethostip, bind_run, pure_run, popNet_fst, hnet]
    rw [List.head?_eq_getElem?, List.getElem?_tail, List.getElem?_tail]
    rfl
  refine .inr ⟨?_, ?_⟩
  · rw [← hip, ← hport]
    exact writeReply_replied _ _ _
  · have hpop : h.2.socks = l.2.socks := popNet_socks _
    have hps : (writeReply 227 (passiveReply h.1 port) ⟨s.client, h.2⟩).2.client.passiveSocket = fd :=
      hfd
    obtain ⟨k', hk', hp', hl'⟩ := writeReply_bindings 227 (passiveReply h.1 port) ⟨s.client, h.2⟩ fd
      _ (hpop ▸ hkl)
    refine ⟨k', ?_, hl', hp'.trans hport⟩
    rw [hps]
    exact hk'

/-- PASV answers 520, or 227 with the host's address and the port its socket listens on. -/
theorem ftpPasv_cases (rest : Str) (s : Session) :
    (∃ msg, (ftpPasv rest s).2.Replied 520 msg) ∨
      (ftpPasv rest s).2.Replied 227
        (passiveReply (hostAddress s.world) s.world.passivePort.toNat) ∧
      ListensOn (ftpPasv rest s).2 s.world.passivePort.toNat := by
  rw [ftpPasv_run]
  let u := (closePassiveSocket s).2
  let r := netSocket u.world
  let t : Session := ⟨{ u.client with passiveSocket := r.1 }, r.2⟩
  simp only
  split
  · exact .inl ⟨_, writeReply_replied _ _ _⟩
  · rename_i hpos
    obtain ⟨⟨k, hk⟩, hnet⟩ := netSocket_some (w := u.world) (not_lt.mp hpos)
    have hport : t.world.passivePort = s.world.passivePort :=
      samePort_frame.trans (closePassiveSocket_samePort s) (netSocket_keeps samePort_sockets u.world)
    have hanswer : t.world.netAnswer 2 = s.world.netAnswer 3 := by
      have hnet' : t.world.answers.net = s.world.answers.net.tail := by
        rw [hnet, closePassiveSocket_net s]
      simp only [World.netAnswer, hnet', List.getElem?_tail]
    have hpassive : t.client.passiveSocket = r.1 := rfl
    rcases listenPassive_cases hpassive hk with h | ⟨hreply, hlisten⟩
    · exact .inl h
    · rw [hport, hanswer, passiveReply_mod] at hreply
      exact .inr ⟨hreply, hport ▸ hlisten⟩

/-! ## The counter -/

theorem listenPassive_port (fd : Int) (s : Session) :
    (listenPassive fd s).2.world.passivePort = s.world.passivePort + 1 := by
  let b := setBlocking fd false s.world
  let p := nextPassivePort b.2
  let n := netBind fd p.1 p.2
  let l := netListen fd n.2
  have hb : SamePort s.world b.2 := setBlocking_keeps samePort_sockets.toSends trivial false s.world
  have hp : p.2.passivePort = s.world.passivePort + 1 := congrArg (· + 1) hb
  have hn : SamePort p.2 n.2 := netBind_keeps samePort_sockets.toTalks fd p.1 p.2
  have hl : SamePort n.2 l.2 := netListen_keeps samePort_sockets.toTalks fd n.2
  have hh : SamePort l.2 (netGethostip l.2).2 :=
    netGethostip_keeps samePort_frame samePort_sockets.answers l.2
  have hclosed : ∀ (msg : Str) (t : Session), SamePort t.world ((do
      closePassiveSocket
      writeReply 520 msg : Ses Int) t).2.world := fun msg t =>
    samePort_frame.trans (closePassiveSocket_samePort t) (writeReply_samePort _ _ _)
  rw [listenPassive_run, ← hp]
  simp only
  split
  · exact samePort_frame.trans hn (hclosed _ _)
  split
  · exact samePort_frame.trans hn (samePort_frame.trans hl (hclosed _ _))
  · exact samePort_frame.trans hn <| samePort_frame.trans hl <| samePort_frame.trans hh
      (writeReply_samePort _ _ _)

/-- PASV advances the counter whenever it gets a socket, whether or not it can bind it. -/
theorem ftpPasv_port (rest : Str) (s : Session) :
    (ftpPasv rest s).2.world.passivePort =
      if 0 ≤ (netSocket (closePassiveSocket s).2.world).1 then s.world.passivePort + 1
      else s.world.passivePort := by
  have hsame := samePort_frame.trans (closePassiveSocket_samePort s)
    (netSocket_keeps samePort_sockets (closePassiveSocket s).2.world)
  rw [ftpPasv_run]
  simp only
  split
  · rename_i hneg
    rw [if_neg (not_le.mpr hneg)]
    exact samePort_frame.trans hsame (writeReply_samePort _ _ _)
  · rename_i hpos
    rw [if_pos (not_lt.mp hpos), listenPassive_port]
    exact congrArg (· + 1) hsame

/-- No other command touches the counter. -/
theorem samePort_handled {line : Str} (h : ¬ Named "PASV" line) :
    Handled (OnWorld SamePort) line := by
  have hd : UsesDevices SamePort := sameStatics_devices.imp samePort_frame fun _ _ h => h.port
  have hload := ftpSiteLoad_keeps samePort_replies (fun _ => samePort_streams) fun _ => rfl
  exact handled_onWorld samePort_sockets samePort_streams (fun _ _ _ => rfl)
    (fun hn => absurd hn h)
    fun _ => ftpSite_keeps samePort_replies (fun _ => hd.mounts) (fun _ _ => rfl) (fun _ => rfl) hload

theorem dataEvents_samePort : Keeps (OnWorld SamePort) dataEvents :=
  dataEvents_keeps
    { toReplies := samePort_replies
      sockets := fun _ => samePort_sockets
      streams := fun _ => samePort_streams.toClosing
      data := fun _ _ _ _ _ _ _ => rfl }

/-- The line is a PASV of a client that is logged in, and it gets a socket. -/
def takesPort (port : UInt16) (c : Client) (w : World) (line : Str) : Bool :=
  c.authenticated && decide (Named "PASV" line) && decide (0 ≤ (netSocket
    (closePassiveSocket (Session.handed ⟨c, w⟩ { w with passivePort := port } line)).2.world).1)

def Parties.takes (s : Parties) : PartyEvent → Bool
  | .act p w (.command line) =>
    match s.clients p with
    | none => false
    | some c => takesPort s.passivePort c w line
  | _ => false

def portsTaken (es : List PartyEvent) : Nat :=
  (es.foldl (fun r e => (r.1 + (r.2.takes e).toNat, r.2.step e)) (0, Parties.boot)).1

theorem portsTaken_concat (es : List PartyEvent) (e : PartyEvent) :
    portsTaken (es ++ [e]) = portsTaken es + ((Parties.run es).takes e).toNat := by
  have hrun : (es.foldl (fun r e => (r.1 + (r.2.takes e).toNat, r.2.step e))
      (0, Parties.boot)).2 = Parties.run es := by
    induction es using List.reverseRecOn with
    | nil => rfl
    | append_singleton es e ih => simp [ih]
  rw [portsTaken, List.foldl_append, List.foldl_cons, List.foldl_nil, hrun]
  rfl

theorem actWith_pasv {c : Client} (ha : c.authenticated = true) {line : Str}
    (hl : Named "PASV" line) (port : UInt16) (w : World) :
    (ClientEvent.command line).actWith port c w =
      (ftpPasv (argument line) (Session.handed ⟨c, w⟩ { w with passivePort := port } line)).2 :=
  step_named ha hl (by decide)

theorem command_port (port : UInt16) (c : Client) (w : World) (line : Str) :
    ((ClientEvent.command line).actWith port c w).world.passivePort =
      if takesPort port c w line then port + 1 else port := by
  by_cases hl : Named "PASV" line
  · by_cases ha : c.authenticated = true
    · rw [actWith_pasv ha hl, ftpPasv_port]
      simp only [takesPort, ha, hl, decide_true, Bool.and_self, Bool.true_and, decide_eq_true_eq]
      rfl
    · have hno : takesPort port c w line = false := by simp [takesPort, ha]
      rw [hno, ClientEvent.actWith, ClientEvent.step_command _ _ (hl.ne_nil (by decide)), dispatch,
        if_neg ha]
      exact unauthenticated_keeps samePort_replies (fun _ => ftpPass_keeps samePort_replies fun _ => rfl)
        (fun _ => ftpRein_keeps (fun _ => samePort_sockets) (fun _ _ => rfl) samePort_replies
          fun _ => rfl) _
  · have hno : takesPort port c w line = false := by simp [takesPort, hl]
    have hkeep := processCommand_keeps (samePort_handled hl) (fun _ _ _ => rfl)
      ⟨c, { w with passivePort := port }⟩
    rw [hno]
    exact hkeep

/-- The counter after any run: it wraps where 16 bits end. -/
theorem passivePort_run (es : List PartyEvent) :
    (Parties.run es).passivePort.toNat = (1024 + portsTaken es) % 2 ^ 16 := by
  have hnext : ∀ (port : UInt16) (b : Bool) (n : Nat), port.toNat = (1024 + n) % 2 ^ 16 →
      (if b then port + 1 else port).toNat = (1024 + (n + b.toNat)) % 2 ^ 16 := by
    intro port b n h
    cases b with
    | false => simpa using h
    | true =>
      simp only [if_true, UInt16.toNat_add, h, Bool.toNat_true]
      have h1 : (1 : UInt16).toNat = 1 := rfl
      omega
  induction es using List.reverseRecOn with
  | nil => rfl
  | append_singleton es e ih =>
    rw [Parties.run_concat, portsTaken_concat]
    cases e with
    | arrive p w peer address => exact ih
    | act p w e =>
      cases hc : (Parties.run es).clients p with
      | none =>
        cases e with
        | command line => simpa [Parties.step, Parties.takes, hc] using ih
        | data => simpa [Parties.step, Parties.takes, hc] using ih
      | some c =>
        cases e with
        | command line =>
          simp only [Parties.step, Parties.takes, hc, command_port]
          exact hnext _ _ _ ih
        | data =>
          have hsame : (ClientEvent.data.actWith (Parties.run es).passivePort c w).world.passivePort =
              (Parties.run es).passivePort :=
            dataEvents_samePort ⟨c, { w with passivePort := (Parties.run es).passivePort }⟩
          simp only [Parties.step, Parties.takes, hc, hsame]
          exact ih

/-! ## The law of passive mode -/

/-- In this run the client executes a PASV and is answered with this text. -/
structure Advertises (es : List PartyEvent) (p : Nat) (c : Client) (w : World) (line : Str)
    (text : Str) : Prop where
  client : (Parties.run es).clients p = some c
  login : c.authenticated = true
  pasv : Named "PASV" line
  reply : ((ClientEvent.command line).actWith (Parties.run es).passivePort c w).Replied 227 text

/-- The text tells an unprivileged port of the host on which the passive socket listens, and PORT
would read that address and port in it. -/
def Advertised (host : Nat) (t : Session) (text : Str) : Prop :=
  ∃ port, 1024 ≤ port ∧ port ≤ 65535 ∧
    text = "Entering Passive Mode (".toList ++ commas (portNumbers host port) ++ ").".toList ∧
    ListensOn t port ∧
    ∀ u, (ftpPort (commas (portNumbers host port)) u).2.client.address =
      { ip := host, port := port }

theorem ListensOn.unique {t : Session} {a b : Nat} (h : ListensOn t a) (h' : ListensOn t b) :
    a = b := by
  obtain ⟨k, hk, -, rfl⟩ := h
  obtain ⟨k', hk', -, rfl⟩ := h'
  rw [hk] at hk'
  exact congrArg Sock.port (Option.some.inj hk')

theorem advertised_iff {es : List PartyEvent} {p : Nat} {c : Client} {w : World}
    {line text : Str} (h : Advertises es p c w line text) :
    Advertised (hostAddress w)
        ((ClientEvent.command line).actWith (Parties.run es).passivePort c w) text ↔
      1024 ≤ (Parties.run es).passivePort.toNat := by
  have hrun := actWith_pasv h.login h.pasv (Parties.run es).passivePort w
  have hreply := h.reply
  have hmax := (Parties.run es).passivePort.toNat_lt
  rw [hrun] at hreply ⊢
  let u := Session.handed ⟨c, w⟩ { w with passivePort := (Parties.run es).passivePort } line
  have hhost : hostAddress u.world = hostAddress w := rfl
  have hu : u.world.passivePort = (Parties.run es).passivePort := rfl
  rcases ftpPasv_cases (argument line) u with ⟨msg, hr⟩ | ⟨hr, hl⟩
  · exact absurd (hreply.unique hr).1 (by decide)
  obtain ⟨-, ht⟩ := hreply.unique hr
  rw [hhost, hu] at ht
  rw [hu] at hl
  constructor
  · rintro ⟨port, hlo, -, -, hlisten, -⟩
    have he := hlisten.unique hl
    omega
  · intro hlo
    refine ⟨(Parties.run es).passivePort.toNat, hlo, by omega, ht, hl, fun v => ?_⟩
    exact ftpPort_portNumbers (Nat.mod_lt _ (by decide)) hmax v

/-- In every run of any number of clients a 227 tells a right port exactly as long as the counter
has not wrapped: of every 65536 ports taken, for the first 64512. -/
theorem passive_ports {es : List PartyEvent} {p : Nat} {c : Client} {w : World} {line text : Str}
    (h : Advertises es p c w line text) :
    Advertised (hostAddress w)
        ((ClientEvent.command line).actWith (Parties.run es).passivePort c w) text ↔
      portsTaken es % 65536 < 64512 := by
  have hcount := passivePort_run es
  rw [advertised_iff h]
  omega

/-- The control connection is open, and these network outcomes are to come. -/
def offering (net : List NetAnswer) : World := { connectedWorld with answers := { net := net } }

def granted : World := offering [{ code := 5 }, {}, {}, { addr := { ip := 0x0a000001 } }]

def refused : World := offering [{ code := 5 }, { code := -1 }]

def refusedRun (n : Nat) : List PartyEvent :=
  [.arrive 0 (offering []) 3 {}, .act 0 (offering []) (.command "PASS".toList)] ++
    List.replicate n (.act 0 refused (.command "PASV".toList))

def loggedInClient : Client := { newClient (offering []) 3 {} with authenticated := true }

theorem refused_client (port : UInt16) :
    ((ClientEvent.command "PASV".toList).actWith port loggedInClient refused).client =
      loggedInClient := by
  rw [actWith_pasv rfl (by decide), ftpPasv_run]
  rfl

theorem refusedRun_spec (n : Nat) : (Parties.run (refusedRun n)).clients 0 = some loggedInClient ∧
    portsTaken (refusedRun n) = n := by
  induction n with
  | zero => exact ⟨rfl, rfl⟩
  | succ n ih =>
    obtain ⟨hc, ht⟩ := ih
    have htakes : takesPort (Parties.run (refusedRun n)).passivePort loggedInClient refused
        "PASV".toList = true := rfl
    have he : refusedRun (n + 1) =
        refusedRun n ++ [.act 0 refused (.command "PASV".toList)] := by
      simp [refusedRun, List.replicate_succ']
    rw [he, Parties.run_concat, portsTaken_concat, ht]
    constructor
    · simp only [Parties.step, hc, Function.update_self]
      rw [refused_client]
    · simp only [Parties.takes, hc, htakes]
      rfl

theorem passive_ports_first :
    let t := (ClientEvent.command "PASV".toList).actWith 1024 loggedInClient granted
    Advertised 0x0a000001 t "Entering Passive Mode (10,0,0,1,4,0).".toList ∧
      t.world.sent 0 = "227 Entering Passive Mode (10,0,0,1,4,0).\r\n".toList := by
  have h : Advertises (refusedRun 0) 0 loggedInClient granted "PASV".toList
      "Entering Passive Mode (10,0,0,1,4,0).".toList := by
    refine ⟨rfl, rfl, by decide, ?_⟩
    exact ⟨[.command "PASV".toList none], 0, by decide +kernel⟩
  exact ⟨(passive_ports h).mpr (by decide +kernel), by decide +kernel⟩

/-- After 64512 ports the next PASV tells port 0. -/
theorem passive_port_wraps :
    ∃ es p c w line text, Advertises es p c w line text ∧
      ¬ Advertised (hostAddress w)
        ((ClientEvent.command line).actWith (Parties.run es).passivePort c w) text := by
  obtain ⟨hc, ht⟩ := refusedRun_spec 64512
  have hport : (Parties.run (refusedRun 64512)).passivePort = 0 := by
    have hcount := passivePort_run (refusedRun 64512)
    rw [ht] at hcount
    exact UInt16.toNat_inj.mp (by simpa using hcount)
  have h : Advertises (refusedRun 64512) 0 loggedInClient granted "PASV".toList
      (passiveReply 0x0a000001 0) := by
    refine ⟨hc, rfl, by decide, ?_⟩
    rw [hport]
    exact ⟨[.command "PASV".toList none], 0, by decide +kernel⟩
  refine ⟨_, _, _, _, _, _, h, fun hadv => ?_⟩
  have hlo := (advertised_iff h).mp hadv
  rw [hport] at hlo
  exact absurd hlo (by decide)

end Ftpii
