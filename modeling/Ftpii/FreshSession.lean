import Ftpii.Alike
import Ftpii.Authentication
import Ftpii.DataSetup
set_option autoImplicit false

/-! What REIN leaves of a session, compared with a new connection of the same peer. -/

namespace Ftpii
open StateProgram Prog

/-! ## Between transfers -/

/-- Without a callback nothing of a transfer is left. -/
def Client.Settled (c : Client) : Prop := c.dataCallback = none → c.released = c

def KeepsSettled (c c' : Client) : Prop := c.Settled → c'.Settled

theorem keepsSettled_frame : Frame KeepsSettled where
  refl _ := id
  trans h h' := h' ∘ h

theorem KeepsSettled.update {c c' : Client} (hcb : c'.dataCallback = c.dataCallback)
    (h : c.released = c → c'.released = c') : KeepsSettled c c' := fun hs hc => h (hs (hcb ▸ hc))

theorem prepareDataConnection_settled (callback : Callback) (arg : Nat) (cleanup : Cleanup) :
    Keeps (OnClient KeepsSettled) (prepareDataConnection callback arg cleanup) := by
  intro s hs
  rw [prepareDataConnection_run]
  let r := writeReply 150 "Transferring data.".toList s
  have hr : r.2.client = s.client := rfl
  simp only
  split
  · exact hs
  split
  · rename_i hneg
    rcases prepareSocket_client r.2 with ⟨-, hc⟩ | ⟨hpos, -⟩
    · have hsame : (transferError ((prepareSocket r.2).2.emitted
          (.noDataSocket (prepareSocket r.2).1))).2.client = s.client := hc.trans hr
      rw [hsame]
      exact hs
    · exact absurd hneg (not_lt.mpr hpos)
  · intro hcb
    have hsome : (startTransfer callback arg cleanup (prepareSocket r.2).1
        (prepareSocket r.2).2).2.client.dataCallback = some callback := rfl
    rw [hsome] at hcb
    contradiction

theorem settled_replies : Replies (OnClient KeepsSettled) := OnClient.replies keepsSettled_frame

theorem settled_passive (s : Session) (fd : Int) :
    OnClient KeepsSettled s { s with client := { s.client with passiveSocket := fd } } :=
  .update rfl fun h => congrArg (fun c : Client => { c with passiveSocket := fd }) h

theorem settled_use : SetupUse (OnClient KeepsSettled) where
  toReplies := settled_replies
  streams := OnClient.streams keepsSettled_frame
  devices := OnClient.devices keepsSettled_frame
  statics _ _ _ _ _ := id
  type _ t := .update rfl fun h => congrArg (fun c : Client => { c with representationType := t }) h
  pending _ p := .update rfl fun h => congrArg (fun c : Client => { c with pendingRename := p }) h
  auth _ := .update rfl fun h => congrArg (fun c : Client => { c with authenticated := true }) h
  cwd _ d := .update rfl fun h => congrArg (fun c : Client => { c with cwd := d }) h
  marker _ k := .update rfl fun h => congrArg (fun c : Client => { c with restartMarker := k }) h
  prepare := prepareDataConnection_settled
  pasv := ftpPasv_keeps (OnClient.sockets keepsSettled_frame) settled_passive settled_replies
    fun _ _ => id
  port := ftpPort_keeps (OnClient.sockets keepsSettled_frame) settled_passive settled_replies
    fun _ a => .update rfl fun h => congrArg (fun c : Client => { c with address := a }) h
  rein := ftpRein_keeps (OnClient.sockets keepsSettled_frame) settled_passive settled_replies
    fun _ => .update rfl fun h => congrArg (fun c : Client =>
      { c with cwd := ['/'], representationType := 'A', authenticated := false }) h

/-- A turn of the data connection ends the transfer whole or leaves it under way. -/
theorem dataEvents_settled {s : Session} (h : s.client.dataCallback.isSome) :
    (dataEvents s).2.client.Settled := by
  have hstep : Silent True s (dataStep s).2 := dataStep_silent s
  rw [dataEvents_run]
  simp only
  split
  · have hc : (transferDone (dataStep s).1 (cleanupDataResources (dataStep s).2).2).2.client =
        (dataStep s).2.client.released := by
      rw [← cleanupDataResources_client]
      unfold transferDone
      simp only [ite_run]
      split <;> rfl
    intro _
    rw [hc]
    rfl
  · intro hcb
    rw [hstep.callback] at hcb
    simp [hcb] at h

/-! ## Runs of one client -/

/-- When the server lets the event happen: lines wait for the end of a transfer. -/
def ClientEvent.Due (c : Client) : ClientEvent → Prop
  | .command _ => c.dataCallback = none
  | .data => c.dataCallback.isSome

/-- Every event of the run is due when it happens. -/
def Orderly (w : World) (peer : Int) (address : SockAddr) (is : List (World × ClientEvent)) : Prop :=
  ∀ pre i post, is = pre ++ i :: post → i.2.Due (clientRun w peer address pre).client

theorem settled_run {w : World} {peer : Int} {address : SockAddr}
    {is : List (World × ClientEvent)} (h : Orderly w peer address is) :
    (clientRun w peer address is).client.Settled := by
  induction is using List.reverseRecOn with
  | nil => exact fun _ => rfl
  | append_singleton is i ih =>
    have hdue := h is i [] rfl
    have hbefore := ih fun pre j post he => h pre j (post ++ [i]) (by simp [he])
    rw [clientRun_concat]
    obtain ⟨w', e⟩ := i
    cases e with
    | command line => exact settled_use.command (fun _ _ _ => id) line _ hbefore
    | data => exact dataEvents_settled hdue

theorem ClientEvent.step_apart (s : Session) (i : World × ClientEvent) :
    Apart ⟨s.client, i.1⟩ (step s i) := by
  obtain ⟨w, e⟩ := i
  cases e with
  | command line => exact processCommand_apart line ⟨s.client, w⟩
  | data => exact dataEvents_apart ⟨s.client, w⟩

theorem clientRun_identity (w : World) (peer : Int) (address : SockAddr)
    (is : List (World × ClientEvent)) :
    (clientRun w peer address is).client.socket = peer ∧
      (clientRun w peer address is).client.conn = (newClient w peer address).conn := by
  induction is using List.reverseRecOn with
  | nil => exact ⟨rfl, rfl⟩
  | append_singleton is i ih =>
    have hstep := ClientEvent.step_apart (clientRun w peer address is) i
    rw [clientRun_concat]
    exact ⟨hstep.socket.trans ih.1, hstep.conn.trans ih.2⟩

/-! ## REIN -/

theorem closePassiveSocket_client (s : Session) :
    (closePassiveSocket s).2.client = { s.client with
      passiveSocket := if 0 ≤ s.client.passiveSocket then -1 else s.client.passiveSocket } := by
  by_cases hs : 0 ≤ s.client.passiveSocket
  · simp +instances only [closePassiveSocket, bind_run, client_run, ite_run, if_pos hs, update_run,
      os_run]
  · rw [closePassiveSocket_none (by omega), if_neg hs]

theorem step_rein (s : Session) (w : World) {line : Str} (h : Named "REIN" line) :
    (ClientEvent.step s (w, .command line)).client = { s.client with
      passiveSocket := if 0 ≤ s.client.passiveSocket then -1 else s.client.passiveSocket
      cwd := ['/']
      representationType := 'A'
      authenticated := false } := by
  rw [ClientEvent.step_command s w (h.ne_nil (by decide)), dispatch_both h ftpRein rfl rfl]
  have hclose := closePassiveSocket_client (s.handed w line)
  have hrun : (ftpRein (argument line) (s.handed w line)).2.client =
      { (closePassiveSocket (s.handed w line)).2.client with
        cwd := ['/'], representationType := 'A', authenticated := false } := rfl
  rw [hrun, hclose]
  rfl

/-- The session goes on as one of the new client would, and nothing of the old one is left in it. -/
structure Afresh (s : Session) (fresh : Client) : Prop where
  effects : ∀ (js : List (World × ClientEvent)) j, (ClientEvent.step (js.foldl ClientEvent.step s) j).world =
    (ClientEvent.step (js.foldl ClientEvent.step ⟨fresh, s.world⟩) j).world
  rename : s.client.pendingRename = []
  marker : s.client.restartMarker = 0
  address : s.client.address = fresh.address
  passive : s.client.passiveSocket < 0
  cwd : s.client.cwd = ['/']
  login : s.client.authenticated = false

theorem effects_of_norm {s t : Session} (h : s.client.norm = t.client.norm)
    (js : List (World × ClientEvent)) (j : World × ClientEvent) :
    (ClientEvent.step (js.foldl ClientEvent.step s) j).world =
      (ClientEvent.step (js.foldl ClientEvent.step t) j).world := by
  induction js generalizing s t with
  | nil => exact (ClientEvent.step_alike h s.world t.world j).world
  | cons i js ih => exact ih (ClientEvent.step_alike h s.world t.world i).client

/-- After REIN the session is that of a new connection of the peer exactly if no rename was pending,
no restart marker set and no data address given. -/
theorem rein_afresh_iff {w : World} {peer : Int} {address : SockAddr}
    {is : List (World × ClientEvent)} (h : Orderly w peer address is) {line : Str}
    (hr : Named "REIN" line) (w' : World)
    (hd : (clientRun w peer address is).client.dataCallback = none) :
    Afresh (ClientEvent.step (clientRun w peer address is) (w', .command line))
        (newClient w peer address) ↔
      (clientRun w peer address is).client.pendingRename = [] ∧
        (clientRun w peer address is).client.restartMarker = 0 ∧
        (clientRun w peer address is).client.address = address := by
  have hclient := step_rein (clientRun w peer address is) w' hr
  have hsettled := settled_run h hd
  obtain ⟨hsocket, hconn⟩ := clientRun_identity w peer address is
  generalize clientRun w peer address is = s at *
  constructor
  · intro ha
    have hrename := ha.rename
    have hmarker := ha.marker
    have haddress := ha.address
    rw [hclient] at hrename hmarker haddress
    exact ⟨hrename, hmarker, haddress⟩
  · rintro ⟨hrename, hmarker, haddress⟩
    have hpassive : (if 0 ≤ s.client.passiveSocket then -1 else s.client.passiveSocket) < 0 := by
      split <;> omega
    have hnorm : (ClientEvent.step s (w', .command line)).client.norm =
        (newClient w peer address).norm := by
      have hmax : max (if 0 ≤ s.client.passiveSocket then -1 else s.client.passiveSocket) (-1) =
          (-1 : Int) := by omega
      rw [hclient, ← hsettled]
      simp only [Client.norm, Client.released, newClient, Client.mk.injEq, hsocket, hrename, hmarker,
        haddress, hmax, true_and]
      exact ⟨by decide, hconn⟩
    refine ⟨effects_of_norm hnorm, ?_, ?_, ?_, ?_, ?_, ?_⟩ <;> rw [hclient]
    · exact hrename
    · exact hmarker
    · exact haddress
    · exact hpassive

theorem rein_afresh_login :
    Afresh (ClientEvent.step (clientRun connectedWorld 3 {} [(connectedWorld, .command "PASS".toList)])
        (connectedWorld, .command "REIN".toList)) (newClient connectedWorld 3 {}) := by
  have horderly : Orderly connectedWorld 3 {} [(connectedWorld, .command "PASS".toList)] := by
    intro pre i post he
    obtain ⟨rfl, rfl⟩ : pre = [] ∧ (connectedWorld, .command "PASS".toList) = i := by
      cases pre <;> simp_all
    rfl
  exact (rein_afresh_iff horderly (by decide) _ (by decide +kernel)).mpr
    ⟨by decide +kernel, by decide +kernel, by decide +kernel⟩

/-- A rename announced before REIN is carried out by the next user. -/
theorem rein_keeps_rename :
    ¬ Afresh (ClientEvent.step (clientRun connectedWorld 3 {}
        [(connectedWorld, .command "PASS".toList), (connectedWorld, .command "RNFR /sd/a".toList)])
      (connectedWorld, .command "REIN".toList)) (newClient connectedWorld 3 {}) := by
  intro h
  have he := h.effects [(connectedWorld, .command "PASS".toList)]
    (connectedWorld, .command "RNTO /sd/b".toList)
  have hlog := congrArg World.log he
  revert hlog
  decide +kernel

end Ftpii
