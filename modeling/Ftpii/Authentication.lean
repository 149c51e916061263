import Ftpii.ReplyDiscipline
import Ftpii.RestartMarker
import Mathlib.Tactic.IntervalCases
set_option autoImplicit false

/-!
The authentication gate: who is logged in, and what a line does that is sent by
someone who is not.
-/

namespace Ftpii
open StateProgram Prog CString

/-! ## Who is logged in -/

def Event.login : Event → Bool → Bool
  | .command l p, b =>
    if Named "REIN" l then false
    else if Named "PASS" l ∧ compareFtpPassword p (argument l) then true
    else b
  | _, b => b

def loginState (h : List Event) : Bool := h.foldl (fun b e => e.login b) false

theorem loginState_concat (h : List Event) (e : Event) :
    loginState (h ++ [e]) = e.login (loginState h) := by simp [loginState]

theorem loginState_answers {h es : List Event} (hes : ∀ e ∈ es, e.IsAnswer) :
    loginState (h ++ es) = loginState h := by
  induction es using List.reverseRecOn with
  | nil => simp
  | append_singleton es e ih =>
    have hsame : e.login (loginState (h ++ es)) = loginState (h ++ es) := by
      have he := hes e (by simp)
      cases e <;> simp_all [Event.IsAnswer, Event.login]
    rw [← List.append_assoc, loginState_concat, hsame]
    exact ih fun e he => hes e (by simp [he])

/-- A PASS with the password then in force, or when there was none, and no REIN since. -/
def LoggedIn (h : List Event) : Prop :=
  ∃ pre line password post, h = pre ++ .command line password :: post ∧ Named "PASS" line ∧
    (password = none ∨ password = some (argument line)) ∧
    ∀ line' password', .command line' password' ∈ post → ¬ Named "REIN" line'

theorem compareFtpPassword_iff {password : Option Str} {attempt : Str} :
    compareFtpPassword password attempt = true ↔ password = none ∨ password = some attempt := by
  cases password <;> simp [compareFtpPassword]

theorem not_rein_of_pass {line : Str} (hp : Named "PASS" line) : ¬ Named "REIN" line := fun hr =>
  absurd (hp.unique hr) (by decide)

/-- One more event: it logs in, or it does not log out who was logged in. -/
theorem loggedIn_concat {h : List Event} {e : Event} :
    LoggedIn (h ++ [e]) ↔
      (∃ line password, e = .command line password ∧ Named "PASS" line ∧
        (password = none ∨ password = some (argument line))) ∨
      LoggedIn h ∧ ∀ line password, e = .command line password → ¬ Named "REIN" line := by
  constructor
  · rintro ⟨pre, line, password, post, he, hp, ha, hsince⟩
    cases post using List.reverseRecOn with
    | nil =>
      obtain ⟨rfl, rfl⟩ : h = pre ∧ e = .command line password := by simpa using he
      exact .inl ⟨line, password, rfl, hp, ha⟩
    | append_singleton post e' =>
      have he' : h ++ [e] = (pre ++ .command line password :: post) ++ [e'] := by simpa using he
      obtain ⟨rfl, hlast⟩ := List.append_inj' he' rfl
      obtain rfl : e = e' := by simpa using hlast
      refine .inr ⟨⟨pre, line, password, post, rfl, hp, ha, fun l p hm => ?_⟩, ?_⟩
      · exact hsince l p (by simp [hm])
      · rintro l p rfl
        exact hsince l p (by simp)
  · rintro (⟨line, password, rfl, hp, ha⟩ | ⟨⟨pre, line, password, post, rfl, hp, ha, hsince⟩, hlast⟩)
    · exact ⟨h, line, password, [], by simp, hp, ha, by simp⟩
    · refine ⟨pre, line, password, post ++ [e], by simp, hp, ha, fun l p hm => ?_⟩
      rcases List.mem_append.mp hm with hm | hm
      · exact hsince l p hm
      · exact hlast l p (List.mem_singleton.mp hm).symm

theorem loginState_iff (h : List Event) : loginState h = true ↔ LoggedIn h := by
  induction h using List.reverseRecOn with
  | nil => simp [loginState, LoggedIn]
  | append_singleton h e ih =>
    rw [loginState_concat, loggedIn_concat, ← ih]
    cases e with
    | command l p =>
      by_cases hr : Named "REIN" l
      · have hp : ¬ Named "PASS" l := fun hp => not_rein_of_pass hp hr
        simp [Event.login, hr, hp]
      · by_cases hp : Named "PASS" l
        · simp [Event.login, hr, hp, compareFtpPassword_iff]
        · simp [Event.login, hr, hp]
    | _ => simp [Event.login]

theorem Event.login_of_ne {e : Event} (h : ∀ l p, e ≠ .command l p) (b : Bool) : e.login b = b := by
  cases e with
  | command l p => exact absurd rfl (h l p)
  | _ => rfl

/-! ## What a line does to the login -/

def SameLogin (c c' : Client) : Prop := c'.authenticated = c.authenticated

theorem sameLogin_frame : Frame SameLogin where
  refl _ := rfl
  trans h h' := Eq.trans h' h

theorem sameLogin_use : HandlerUse (OnClient SameLogin) where
  toReplies := OnClient.replies sameLogin_frame
  unprepared _ _ := rfl
  dataSocket _ _ := rfl
  prepared _ _ _ _ _ := rfl
  sockets := OnClient.sockets sameLogin_frame
  streams := OnClient.streams sameLogin_frame
  devices := OnClient.devices sameLogin_frame
  statics _ _ _ _ _ := rfl
  type _ _ := rfl
  pending _ _ := rfl
  passive _ _ := rfl
  address _ _ := rfl

theorem dispatch_both {name : String} {line : Str} (h : Named name line) (handler : Str → Ses Int)
    (hu : unauthenticatedHandlers.getD
      (unauthenticatedCommands.findIdx (caseEq · name.toList)) ftpUnknown = handler)
    (ha : authenticatedHandlers.getD
      (authenticatedCommands.findIdx (caseEq · name.toList)) ftpUnknown = handler)
    (authenticated : Bool) : dispatch authenticated line = handler (argument line) := by
  rw [dispatch, dispatchToHandler_named h, dispatchToHandler_named h, hu, ha, ite_self]

theorem ftpPass_run (attempt : Str) (s : Session) : ftpPass attempt s =
    if compareFtpPassword s.world.password attempt
    then writeReply 230 "User logged in, proceed.".toList
      { s with client := { s.client with authenticated := true } }
    else writeReply 530 "Login incorrect.".toList s := by
  simp +instances only [ftpPass, bind_run, os_run, gets_run, ite_run, update_run]

theorem processCommand_login {line : Str} (hl : line ≠ []) (s : Session) :
    (processCommand line s).2.client.authenticated =
      (Event.command line s.world.password).login s.client.authenticated := by
  rw [processCommand_run hl]
  by_cases hr : Named "REIN" line
  · rw [dispatch_both hr ftpRein rfl rfl]
    simp [Event.login, hr]
    rfl
  by_cases hp : Named "PASS" line
  · rw [dispatch_both hp ftpPass rfl rfl]
    have hpw : (s.emitted (.command line s.world.password)).world.password = s.world.password := rfl
    rw [ftpPass_run, hpw]
    by_cases ha : compareFtpPassword s.world.password (argument line) = true
    · simp only [Event.login, hr, hp, ha, if_true, if_false, and_self]
      rfl
    · simp only [Event.login, hr, hp, ha, if_false]
      rfl
  · have hh : Handled (OnClient SameLogin) line :=
      sameLogin_use.handled (fun h => absurd h hp)
        (fun _ path => changeDirectory_keeps sameLogin_use.toReplies
          (fun c => (sameLogin_use.streams c).toUsesPaths) (fun _ _ => rfl) path _)
        (fun _ _ => changeDirectory_keeps sameLogin_use.toReplies
          (fun c => (sameLogin_use.streams c).toUsesPaths) (fun _ _ => rfl) _ _)
        (fun _ => ftpRetr_keeps sameLogin_use.toReplies sameLogin_use.sockets sameLogin_use.streams
          sameLogin_use.toUpdatesTransfer fun _ _ => rfl)
        (fun _ => ftpStor_keeps sameLogin_use.toReplies sameLogin_use.sockets sameLogin_use.streams
          sameLogin_use.toUpdatesTransfer fun _ _ => rfl)
        (fun _ => ftpRest_keeps sameLogin_use.toReplies fun _ _ => rfl) (fun h => absurd h hr)
    have hsame := dispatch_keeps hh s.client.authenticated
      (s.emitted (.command line s.world.password))
    simp [Event.login, hr, hp]
    exact hsame

/-! ## What a line does before the login -/

/-- A socket but for its blocking mode. -/
def Sock.kept (k : Sock) : Nat × Nat × Bool := (k.id, k.port, k.listening)

/-- Nothing changed but the client's own connection and its login, directory and type. -/
structure LeavesAlone (s t : Session) : Prop where
  client : t.client.socket = s.client.socket ∧ t.client.conn = s.client.conn ∧
    t.client.passiveSocket = s.client.passiveSocket ∧ t.client.dataSocket = s.client.dataSocket ∧
    t.client.dataCallback = s.client.dataCallback ∧
    t.client.dataConnectionCallbackArg = s.client.dataConnectionCallbackArg
  files : t.world.disk = s.world.disk ∧ t.world.streams = s.world.streams ∧
    t.world.nextStream = s.world.nextStream
  devices : t.world.devices = s.world.devices
  statics : t.world.password = s.world.password ∧ t.world.passivePort = s.world.passivePort ∧
    t.world.resetFlag = s.world.resetFlag ∧ t.world.dolStarted = s.world.dolStarted
  opened : t.world.nextSock = s.world.nextSock ∧
    ∀ n, (t.world.socks n).map Sock.kept = (s.world.socks n).map Sock.kept
  modes : ∀ n, n ≠ s.client.socket → t.world.socks n = s.world.socks n
  others : ∀ k, k ≠ s.client.conn → t.world.hist k = s.world.hist k

theorem leavesAlone_frame : Frame LeavesAlone where
  refl _ := ⟨⟨rfl, rfl, rfl, rfl, rfl, rfl⟩, ⟨rfl, rfl, rfl⟩, rfl, ⟨rfl, rfl, rfl, rfl⟩,
    ⟨rfl, fun _ => rfl⟩, fun _ _ => rfl, fun _ _ => rfl⟩
  trans := by
    rintro a b c ⟨⟨h1, h2, h3, h4, h5, h6⟩, ⟨h7, h8, h9⟩, hd, ⟨h10, h11, h12, h13⟩, ⟨h14, h15⟩, hm, ho⟩
      ⟨⟨g1, g2, g3, g4, g5, g6⟩, ⟨g7, g8, g9⟩, gd, ⟨g10, g11, g12, g13⟩, ⟨g14, g15⟩, gm, go⟩
    exact ⟨⟨g1.trans h1, g2.trans h2, g3.trans h3, g4.trans h4, g5.trans h5, g6.trans h6⟩,
      ⟨g7.trans h7, g8.trans h8, g9.trans h9⟩, gd.trans hd,
      ⟨g10.trans h10, g11.trans h11, g12.trans h12, g13.trans h13⟩,
      ⟨g14.trans h14, fun n => (g15 n).trans (h15 n)⟩,
      fun n hn => (gm n (h1 ▸ hn)).trans (hm n hn), fun k hk => (go k (h2 ▸ hk)).trans (ho k hk)⟩

/-- As `LeavesAlone`, of a client without a passive socket. -/
def Gated (s t : Session) : Prop := s.client.passiveSocket < 0 → LeavesAlone s t

theorem gated_frame : Frame Gated where
  refl s _ := leavesAlone_frame.refl s
  trans h h' hs := by
    have ha := h hs
    exact leavesAlone_frame.trans ha (h' (ha.client.2.2.1 ▸ hs))

theorem gated_sends (c : Client) : Sends (· = c.socket) (At Gated c) where
  toFrame := frameAt gated_frame c
  answers w _ _ _ := { leavesAlone_frame.refl ⟨c, w⟩ with devices := rfl }
  shrink w _ := { leavesAlone_frame.refl ⟨c, w⟩ with devices := rfl }
  flags := by
    rintro w n k f rfl hk -
    refine { leavesAlone_frame.refl ⟨c, w⟩ with opened := ⟨rfl, fun n => ?_⟩, modes := ?_ }
    · by_cases hn : n = c.socket
      · subst hn
        simp [World.setSock, hk, Sock.kept]
      · simp [World.setSock, hn]
    · intro n hn
      simp [World.setSock, hn]
  write w _ _ _ _ _ _ _ _ := { leavesAlone_frame.refl ⟨c, w⟩ with devices := rfl }

theorem gated_replies : Replies Gated :=
  .of_sends gated_frame gated_sends fun s _ _ _ _ =>
    { leavesAlone_frame.refl s with others := fun k hk => by simp [World.emit, hk] }

theorem closePassiveSocket_none {s : Session} (hs : s.client.passiveSocket < 0) :
    closePassiveSocket s = ((), s) := by
  have hneg : ¬ 0 ≤ s.client.passiveSocket := by omega
  simp +instances only [closePassiveSocket, bind_run, client_run, ite_run, hneg, if_false, pure_run]

theorem closePassiveSocket_gated : Keeps Gated closePassiveSocket := by
  intro s hs
  rw [closePassiveSocket_none hs]
  exact leavesAlone_frame.refl s

/-- Before the login a line changes nothing but its own client. -/
theorem unauthenticated_gated (line : Str) : Keeps Gated (dispatch false line) := by
  have hrefl := leavesAlone_frame.refl
  refine unauthenticated_keeps gated_replies
    (fun _ => ftpPass_keeps gated_replies fun s => ?_) fun _ rest => ?_
  · exact fun _ => { hrefl s with client := ⟨rfl, rfl, rfl, rfl, rfl, rfl⟩ }
  · exact .bind gated_frame closePassiveSocket_gated fun _ =>
      .bind gated_frame (fun s _ => { hrefl s with client := ⟨rfl, rfl, rfl, rfl, rfl, rfl⟩ })
        fun _ => writeReply_keeps gated_replies _ _

/-- The replies before the login, one more than there are commands. -/
def gateReplies (accepted : Bool) : List (Nat × Str) :=
  [(331, "User name okay, need password.".toList),
    if accepted then (230, "User logged in, proceed.".toList) else (530, "Login incorrect.".toList),
    (221, "Service closing control connection.".toList), (220, "Service ready for new user.".toList),
    (200, "NOOP command successful.".toList), (530, "Please login with USER and PASS.".toList)]

/-- The reply to a line before the login, as a function of the line and of what comparing its
argument with the password says. -/
def gateReply (line : Str) (accepted : Bool) : Nat × Str :=
  (gateReplies accepted).getD
    (unauthenticatedCommands.findIdx (caseEq · (splitCommand line).1)) (502, [])

theorem unauthenticated_reply (line : Str) {s : Session} (hs : s.client.passiveSocket < 0) :
    ∃ r, (dispatch false line s).2.story = s.story ++
      [.reply (gateReply line (compareFtpPassword s.world.password (argument line))).1
        (gateReply line (compareFtpPassword s.world.password (argument line))).2 r] := by
  have hle : unauthenticatedCommands.findIdx (caseEq · (splitCommand line).1) ≤ 5 :=
    List.findIdx_le_length
  have hrun : dispatch false line s =
      unauthenticatedHandlers.getD
        (unauthenticatedCommands.findIdx (caseEq · (splitCommand line).1)) ftpUnknown
        (argument line) s := rfl
  rw [hrun, gateReply]
  generalize unauthenticatedCommands.findIdx (caseEq · (splitCommand line).1) = i at hle
  interval_cases i
  · exact ⟨_, writeReply_story _ _ s⟩
  · change ∃ r, (ftpPass (argument line) s).2.story = _
    rw [ftpPass_run]
    cases compareFtpPassword s.world.password (argument line) with
    | true => exact ⟨_, writeReply_story _ _ _⟩
    | false => exact ⟨_, writeReply_story _ _ s⟩
  · exact ⟨_, writeReply_story _ _ s⟩
  · change ∃ r, (ftpRein (argument line) s).2.story = _
    simp only [ftpRein, bind_run, closePassiveSocket_none hs, update_run]
    exact ⟨_, writeReply_story _ _ _⟩
  · exact ⟨_, writeReply_story _ _ s⟩
  · exact ⟨_, writeReply_story _ _ s⟩

/-! ## Runs -/

/-- Who is not logged in has no passive socket. -/
def Client.Gate (c : Client) : Prop := c.authenticated = false → c.passiveSocket < 0

theorem closePassiveSocket_lt (s : Session) :
    (closePassiveSocket s).2.client.passiveSocket < 0 := by
  by_cases hs : s.client.passiveSocket < 0
  · rw [closePassiveSocket_none hs]
    exact hs
  · have hpos : 0 ≤ s.client.passiveSocket := by omega
    simp +instances only [closePassiveSocket, bind_run, client_run, ite_run, if_pos hpos, update_run]
    decide

theorem processCommand_gate {line : Str} (hl : line ≠ []) {s : Session} (hs : s.client.Gate) :
    (processCommand line s).2.client.Gate := by
  intro hout
  rw [processCommand_login hl] at hout
  rw [processCommand_run hl]
  by_cases hr : Named "REIN" line
  · rw [dispatch_both hr ftpRein rfl rfl]
    exact closePassiveSocket_lt (s.emitted (.command line s.world.password))
  · have hauth : s.client.authenticated = false := by
      simp only [Event.login, hr, if_false] at hout
      split at hout
      · simp at hout
      · exact hout
    have hneg := hs hauth
    have hgate := unauthenticated_gated line (s.emitted (.command line s.world.password)) hneg
    rw [hauth, hgate.client.2.2.1]
    exact hneg

def SameGate (c c' : Client) : Prop :=
  c'.authenticated = c.authenticated ∧ c'.passiveSocket = c.passiveSocket

theorem sameGate_frame : Frame SameGate where
  refl _ := ⟨rfl, rfl⟩
  trans h h' := ⟨h'.1.trans h.1, h'.2.trans h.2⟩

theorem dataEvents_sameGate : Keeps (OnClient SameGate) dataEvents :=
  dataEvents_keeps
    { toReplies := OnClient.replies sameGate_frame
      sockets := OnClient.sockets sameGate_frame
      streams := fun c => (OnClient.streams sameGate_frame c).toClosing
      data := fun _ _ _ _ _ _ _ => ⟨rfl, rfl⟩ }

theorem dataEvents_gate {s : Session} (hs : s.client.Gate) : (dataEvents s).2.client.Gate := by
  obtain ⟨ha, hp⟩ := dataEvents_sameGate s
  unfold Client.Gate
  rw [ha, hp]
  exact hs

theorem step_gate {s : Session} (hs : s.client.Gate) (i : World × ClientEvent) :
    (ClientEvent.step s i).client.Gate := by
  obtain ⟨w, e⟩ := i
  cases e with
  | command line =>
    by_cases hl : line = []
    · subst hl
      exact hs
    · exact processCommand_gate (s := ⟨s.client, w⟩) hl hs
  | data => exact dataEvents_gate (s := ⟨s.client, w⟩) hs

theorem login_conversation (texts : Int → Str) :
    Conversation texts (fun c h => c.authenticated = loginState h ∧ c.Gate) fun _ => True where
  start := trivial
  greeting _ := trivial
  arrive _ _ _ _ := ⟨rfl, fun _ => (by decide : (-1 : Int) < 0)⟩
  weaken _ _ _ := trivial
  note c h e he hj := by
    refine ⟨?_, hj.2⟩
    rw [loginState_concat, Event.login_of_ne, hj.1]
    rintro l p rfl
    exact he
  leaving _ _ _ _ := trivial
  buffer _ _ _ _ hj := hj
  command s l _ hj _ hl _ := by
    refine ⟨trivial, fun _ => ⟨?_, processCommand_gate hl hj.2⟩⟩
    obtain ⟨-, es, he, ha⟩ := processCommand_story hl s
    have hsplit : s.story ++ .command l s.world.password :: es =
        s.story ++ [.command l s.world.password] ++ es := by simp
    rw [he, hsplit, loginState_answers ha, loginState_concat, ← hj.1, processCommand_login hl]
  data s _ hj _ := by
    refine ⟨trivial, fun _ => ⟨?_, dataEvents_gate hj.2⟩⟩
    obtain ⟨es, he, ha⟩ := (dataEvents_answering s).story
    rw [he, loginState_answers ha, (dataEvents_sameGate s).1, hj.1]
  dismiss _ _ _ _ := trivial

/-- In every run a client is logged in exactly if one of its PASS since its accept or last REIN was
right; a line of one that is not changes nothing of the rest, and its reply tells of it only whether
PASS was right. -/
theorem authentication_gate {guard : Server → Label → Prop} {s : Server} (h : Reachable guard s)
    {p : Nat} {c : Client} (hp : s.heap p = some c) :
    (c.authenticated = true ↔ LoggedIn (s.world.hist c.conn)) ∧
      ∀ (es : List (World × ClientEvent)) (w : World) (line : Str), line ≠ [] →
        (es.foldl ClientEvent.step ⟨c, s.world⟩).client.authenticated = false →
        let t : Session := ⟨(es.foldl ClientEvent.step ⟨c, s.world⟩).client, w⟩
        let reply := gateReply line (compareFtpPassword w.password (argument line))
        LeavesAlone t (processCommand line t).2 ∧
          (∃ r, (processCommand line t).2.story =
            t.story ++ [.command line w.password, .reply reply.1 reply.2 r]) ∧
          ∀ q, q ≠ p → (withClient p (processCommand line) s).2.heap q = s.heap q := by
  obtain ⟨hauth, hgate⟩ := ((Conversation.reach login_conversation h).clients p c hp).2
  refine ⟨by rw [hauth, loginState_iff], fun es w line hl hout => ?_⟩
  have hstart : Reach (fun t : Session => t.client.Gate) ClientEvent.step (fun _ _ => True)
      ⟨c, s.world⟩ := .init hgate
  have hneg : (es.foldl ClientEvent.step ⟨c, s.world⟩).client.Gate := by
    have hrun := hstart.foldl es
    refine hrun.invariant (I := fun t : Session => t.client.Gate) (fun _ ht => ht) ?_
    intro t i ht _
    exact step_gate ht i
  intro t reply
  have hcmd : processCommand line t =
      dispatch false line (t.emitted (.command line w.password)) := by
    rw [processCommand_run hl]
    exact congrArg (fun b => dispatch b line (t.emitted (.command line w.password))) hout
  have hnote : LeavesAlone t (t.emitted (.command line w.password)) :=
    { leavesAlone_frame.refl t with others := fun k hk => by simp [World.emit, hk] }
  rw [hcmd]
  refine ⟨leavesAlone_frame.trans hnote (unauthenticated_gated line _ (hneg hout)), ?_,
    fun q hq => ?_⟩
  · obtain ⟨r, hr⟩ := unauthenticated_reply line (s := t.emitted (.command line w.password))
      (hneg hout)
    refine ⟨r, ?_⟩
    rw [hr, story_emitted, List.append_assoc]
    rfl
  · rw [withClient_run hp]
    simp [Server.withSession, hq]

theorem authentication_gate_noop :
    ∃ c, (Server.after noopRun).heap 0 = some c ∧
      LeavesAlone ⟨c, (Server.after noopRun).world⟩
        (processCommand "DELE /sd/f".toList ⟨c, (Server.after noopRun).world⟩).2 := by
  obtain ⟨c, hc, hout⟩ := exists_client (s := Server.after noopRun) (p := 0)
    (fun c => c.authenticated = false) (by decide +kernel)
  have hgate := authentication_gate (after_reachable noopRun) hc
  exact ⟨c, hc, (hgate.2 [] (Server.after noopRun).world "DELE /sd/f".toList (by decide) hout).1⟩

end Ftpii
