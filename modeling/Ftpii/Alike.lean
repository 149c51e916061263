import Ftpii.RestartMarker
import Ftpii.Replying
set_option autoImplicit false

/-!
Sessions that no handler tells apart: the clients differ in their input buffer or in the error
code a failed net_socket left as passive socket.
-/

namespace Ftpii
open StateProgram Prog Scanf

variable {α β : Type}

/-- The client as the handlers see it. -/
def Client.norm (c : Client) : Client :=
  { c with buf := [], offset := 0, passiveSocket := max c.passiveSocket (-1) }

/-- The same world, and clients that look the same to the handlers. -/
structure Alike (s t : Session) : Prop where
  client : s.client.norm = t.client.norm
  world : s.world = t.world

theorem Client.norm_eq {c d : Client} (h : c.norm = d.norm) :
    ∃ b o p, d = { c with buf := b, offset := o, passiveSocket := p } ∧
      max p (-1) = max c.passiveSocket (-1) := by
  obtain ⟨⟩ := c
  obtain ⟨⟩ := d
  simp only [Client.norm, Client.mk.injEq] at h
  obtain ⟨rfl, rfl, hp, rfl, rfl, rfl, rfl, rfl, rfl, -, -, rfl, rfl, rfl, rfl, rfl, rfl⟩ := h
  exact ⟨_, _, _, rfl, hp.symm⟩

def Matches (m k : Ses α) : Prop :=
  ∀ s t, Alike s t → (m s).1 = (k t).1 ∧ Alike (m s).2 (k t).2

namespace Matches

theorem pure (a : α) : Matches (pure a) (pure a) := fun _ _ h => ⟨rfl, h⟩

theorem bind {m k : Ses α} {f g : α → Ses β} (hm : Matches m k) (hf : ∀ a, Matches (f a) (g a)) :
    Matches (m >>= f) (k >>= g) := by
  intro s t h
  obtain ⟨hr, hs⟩ := hm s t h
  have hn := hf (m s).1 (m s).2 (k t).2 hs
  rw [bind_run, bind_run, ← hr]
  exact hn

theorem ite {p : Prop} [Decidable p] {m m' k k' : Ses α} (hm : Matches m k) (hm' : Matches m' k') :
    Matches (if p then m else m') (if p then k else k') := by
  split
  · exact hm
  · exact hm'

theorem os (m : Os α) : Matches (os m) (os m) := by
  rintro ⟨c, w⟩ ⟨d, _⟩ ⟨h, rfl⟩
  exact ⟨rfl, h, rfl⟩

/-- What is read of the client: all but its buffer, and its passive socket if it has one. -/
theorem client {f g : Client → Ses α}
    (h : ∀ c b o p, max p (-1) = max c.passiveSocket (-1) →
      Matches (f c) (g { c with buf := b, offset := o, passiveSocket := p })) :
    Matches (client >>= f) (client >>= g) := by
  intro s t ht
  obtain ⟨b, o, p, hd, hp⟩ := Client.norm_eq ht.client
  have hn := h s.client b o p hp s t ht
  rw [← hd] at hn
  exact hn

theorem update {f : Client → Client}
    (h : ∀ c b o p, max p (-1) = max c.passiveSocket (-1) →
      (f c).norm = (f { c with buf := b, offset := o, passiveSocket := p }).norm) :
    Matches (update f) (update f) := by
  intro s t ht
  obtain ⟨b, o, p, hd, hp⟩ := Client.norm_eq ht.client
  refine ⟨rfl, ?_, ht.world⟩
  simp only [update_run, hd]
  exact h s.client b o p hp

theorem emit (e : Event) : Matches (emit e) (emit e) := by
  rintro ⟨c, w⟩ ⟨d, _⟩ ⟨h, rfl⟩
  obtain ⟨b, o, p, rfl, -⟩ := Client.norm_eq h
  exact ⟨rfl, h, rfl⟩

end Matches

abbrev Blind (m : Ses α) : Prop := Matches m m

/-! ## Handlers -/

theorem writeReply_blind (code : Nat) (msg : Str) : Blind (writeReply code msg) :=
  .client fun _ _ _ _ _ => .bind (.os _) fun _ => .bind (.emit _) fun _ => .pure _

theorem replyErrno_blind : Blind replyErrno := .bind (.os _) fun _ => writeReply_blind _ _

theorem syntaxError_blind : Blind syntaxError := writeReply_blind _ _

theorem closePassiveSocket_blind : Blind closePassiveSocket := by
  refine .client fun c b o p hp => ?_
  by_cases hc : 0 ≤ c.passiveSocket
  · obtain rfl : p = c.passiveSocket := by omega
    simp only [if_pos hc]
    exact .bind (.os _) fun _ => .update fun _ _ _ _ _ => rfl
  · have hn : ¬ 0 ≤ p := by omega
    simp only [if_neg hc, if_neg hn]
    exact .pure _

theorem ftpUser_blind (username : Str) : Blind (ftpUser username) := writeReply_blind _ _

theorem ftpPass_blind (attempt : Str) : Blind (ftpPass attempt) := by
  refine .bind (.os _) fun password => ?_
  split
  · exact .bind (.update fun _ _ _ _ h => by simp [Client.norm, h]) fun _ => writeReply_blind _ _
  · exact writeReply_blind _ _

theorem ftpRein_blind (rest : Str) : Blind (ftpRein rest) :=
  .bind closePassiveSocket_blind fun _ =>
    .bind (.update fun _ _ _ _ h => by simp [Client.norm, h]) fun _ => writeReply_blind _ _

theorem ftpQuit_blind (rest : Str) : Blind (ftpQuit rest) :=
  .bind (writeReply_blind _ _) fun _ => .pure _

theorem ftpType_blind (rest : Str) : Blind (ftpType rest) := by
  refine .ite syntaxError_blind (.ite ?_ syntaxError_blind)
  exact .bind (.update fun _ _ _ _ h => by simp [Client.norm, h]) fun _ => writeReply_blind _ _

theorem ftpMode_blind (rest : Str) : Blind (ftpMode rest) :=
  .ite (writeReply_blind _ _) syntaxError_blind

theorem ftpPwd_blind (rest : Str) : Blind (ftpPwd rest) :=
  .client fun _ _ _ _ _ => writeReply_blind _ _

theorem changeDirectory_blind (path msg : Str) : Blind (changeDirectory path msg) :=
  .client fun _ _ _ _ _ => .bind (.os _) fun _ =>
    .bind (.update fun _ _ _ _ h => by simp [Client.norm, h]) fun _ =>
      .ite (writeReply_blind _ _) replyErrno_blind

theorem ftpDele_blind (path : Str) : Blind (ftpDele path) :=
  .client fun _ _ _ _ _ => .bind (.os _) fun _ => .ite (writeReply_blind _ _) replyErrno_blind

theorem ftpMkd_blind (path : Str) : Blind (ftpMkd path) :=
  .ite syntaxError_blind <| .client fun _ _ _ _ _ => .bind (.os _) fun _ =>
    .ite (.bind (.os _) fun _ => writeReply_blind _ _) replyErrno_blind

theorem ftpRnfr_blind (path : Str) : Blind (ftpRnfr path) :=
  .bind (.update fun _ _ _ _ h => by simp [Client.norm, h]) fun _ => writeReply_blind _ _

theorem ftpRnto_blind (path : Str) : Blind (ftpRnto path) :=
  .client fun _ _ _ _ _ => .ite (writeReply_blind _ _) <| .bind (.os _) fun _ =>
    .bind (.ite (writeReply_blind _ _) replyErrno_blind) fun _ =>
      .bind (.update fun _ _ _ _ h => by simp [Client.norm, h]) fun _ => .pure _

theorem ftpSize_blind (path : Str) : Blind (ftpSize path) :=
  .client fun _ _ _ _ _ => .bind (.os _) fun _ => .ite (writeReply_blind _ _) replyErrno_blind

theorem ftpPasv_blind (rest : Str) : Blind (ftpPasv rest) := by
  have hclosed : ∀ msg, Blind (do
      closePassiveSocket
      writeReply 520 msg) := fun msg => .bind closePassiveSocket_blind fun _ => writeReply_blind _ _
  refine .bind closePassiveSocket_blind fun _ => .bind (.os _) fun _ =>
    .bind (.update fun _ _ _ _ _ => rfl) fun _ => .ite (writeReply_blind _ _) ?_
  refine .bind (.os _) fun _ => .bind (.os _) fun _ => .bind (.os _) fun _ =>
    .ite (hclosed _) ?_
  exact .bind (.os _) fun _ => .ite (hclosed _) (.bind (.os _) fun _ => writeReply_blind _ _)

theorem ftpPort_blind (portspec : Str) : Blind (ftpPort portspec) := by
  unfold ftpPort
  split
  · split
    · exact syntaxError_blind
    · exact .bind closePassiveSocket_blind fun _ =>
        .bind (.update fun _ _ _ _ h => by simp [Client.norm, h]) fun _ => writeReply_blind _ _
  · exact syntaxError_blind

theorem prepareSocket_blind : Blind prepareSocket := by
  have hactive : Blind prepareDataConnectionActive := by
    refine .bind (.os _) fun _ => .ite (.pure _) <| .bind (.os _) fun _ => .bind (.os _) fun _ =>
      .ite (.bind (.os _) fun _ => .pure _) ?_
    exact .bind (.update fun _ _ _ _ h => by simp [Client.norm, h]) fun _ => .pure _
  have hrun : ∀ s : Session, prepareSocket s = if 0 ≤ s.client.passiveSocket
      then prepareDataConnectionPassive s else prepareDataConnectionActive s := by
    intro s
    simp +instances only [prepareSocket, bind_run, client_run, ite_run]
  intro s t h
  obtain ⟨b, o, p, hd, hp⟩ := Client.norm_eq h.client
  rw [hrun s, hrun t]
  by_cases hs : 0 ≤ s.client.passiveSocket
  · have he : t.client.passiveSocket = s.client.passiveSocket := by
      simp only [hd]
      omega
    rw [if_pos hs, if_pos (he ▸ hs)]
    refine ⟨rfl, ?_, h.world⟩
    change ({ s.client with dataSocket := s.client.passiveSocket } : Client).norm =
      ({ t.client with dataSocket := t.client.passiveSocket } : Client).norm
    rw [he]
    exact congrArg (fun c : Client => { c with dataSocket := s.client.passiveSocket }) h.client
  · have hn : ¬ 0 ≤ t.client.passiveSocket := by
      simp only [hd]
      omega
    rw [if_neg hs, if_neg hn]
    exact hactive s t h

theorem prepareDataConnection_blind (callback : Callback) (arg : Nat) (cleanup : Cleanup) :
    Blind (prepareDataConnection callback arg cleanup) := by
  have he : prepareDataConnection callback arg cleanup = (do
      let result ← writeReply 150 "Transferring data.".toList
      if result < 0 then Pure.pure result
      else do
        let result ← prepareSocket
        if result < 0 then do
          emit (.noDataSocket result)
          transferError
        else startTransfer callback arg cleanup result) := rfl
  rw [he]
  refine .bind (writeReply_blind _ _) fun _ => .ite (.pure _) <| .bind prepareSocket_blind fun _ =>
    .ite (.bind (.emit _) fun _ => writeReply_blind _ _) ?_
  exact .bind (.os _) fun _ => .bind (.update fun _ _ _ _ h => by simp [Client.norm, h]) fun _ =>
    .pure _

theorem transfer_blind (callback : Callback) (arg : Nat) (cleanup : Cleanup) :
    Blind (transfer callback arg cleanup) :=
  .bind (prepareDataConnection_blind _ _ _) fun _ =>
    .ite (.bind (.os _) fun _ => .pure _) (.pure _)

theorem listDirectory_blind (callback : Callback) (path : Str) :
    Blind (listDirectory callback path) := by
  refine .client fun _ _ _ _ _ => .bind (.os _) fun o => ?_
  cases o with
  | none => exact replyErrno_blind
  | some dir => exact transfer_blind _ _ _

theorem seekToMarker_blind (f : Nat) {proceed : Ses Int} (hm : Blind proceed) :
    Blind (seekToMarker f proceed) := by
  have hmark : Blind (update fun c => { c with restartMarker := 0 }) :=
    .update fun _ _ _ _ h => by simp [Client.norm, h]
  refine .client fun _ _ _ _ _ => .bind (.os _) fun _ => .ite (.bind hmark fun _ => hm) ?_
  exact .bind (.os _) fun _ => .bind (.os _) fun _ => .bind hmark fun _ => .bind (.os _) fun _ =>
    writeReply_blind _ _

theorem ftpRetr_blind (path : Str) : Blind (ftpRetr path) := by
  refine .client fun _ _ _ _ _ => .bind (.os _) fun o => ?_
  cases o with
  | none => exact replyErrno_blind
  | some f => exact seekToMarker_blind f (transfer_blind _ _ _)

theorem storOrAppend_blind (f : Option Nat) : Blind (storOrAppend f) := by
  cases f with
  | none => exact replyErrno_blind
  | some f => exact transfer_blind _ _ _

theorem ftpStor_blind (path : Str) : Blind (ftpStor path) := by
  refine .client fun _ _ _ _ _ => .bind (.os _) fun o => ?_
  cases o with
  | none =>
    exact .bind (.update fun _ _ _ _ h => by simp [Client.norm, h]) fun _ => storOrAppend_blind none
  | some f => exact seekToMarker_blind f (storOrAppend_blind _)

theorem ftpAppe_blind (path : Str) : Blind (ftpAppe path) :=
  .client fun _ _ _ _ _ => .bind (.os _) fun o => storOrAppend_blind o

theorem ftpRest_blind (offsetStr : Str) : Blind (ftpRest offsetStr) := by
  unfold ftpRest
  split
  · exact syntaxError_blind
  · exact .ite syntaxError_blind <|
      .bind (.update fun _ _ _ _ h => by simp [Client.norm, h]) fun _ => writeReply_blind _ _

theorem ftpSiteLoad_blind (path : Str) : Blind (ftpSiteLoad path) := by
  refine .client fun _ _ _ _ _ => .bind (.os _) fun o => ?_
  cases o with
  | none => exact replyErrno_blind
  | some f => exact .bind (.os _) fun _ => .bind (.os _) fun _ => writeReply_blind _ _

/-! ## Dispatch -/

theorem ftpSite_blind (cmdLine : Str) : Blind (ftpSite cmdLine) := by
  have hanswer : ∀ {γ : Type} (m : Os γ) (k : γ → Ses Int), (∀ a, Blind (k a)) →
      Blind (os m >>= k) := fun m k hk => .bind (.os m) hk
  refine dispatchToHandler_of_zip (Q := Blind) rfl ?_ ?_
  · simp only [siteCommands, siteHandlers, List.zip_cons_cons, List.zip_nil_left,
      List.forall_mem_cons, List.not_mem_nil, false_implies, implies_true, and_true]
    refine ⟨fun _ => .bind (writeReply_blind _ _) fun _ => .bind (.os _) fun _ => .pure _,
      fun _ => writeReply_blind _ _, fun _ => writeReply_blind _ _,
      fun _ => hanswer _ _ fun _ => writeReply_blind _ _,
      fun _ => hanswer _ _ fun _ => writeReply_blind _ _,
      fun _ => hanswer _ _ fun _ => .ite (writeReply_blind _ _) (writeReply_blind _ _),
      fun _ => hanswer _ _ fun _ => ?_, fun _ => hanswer _ _ fun _ => ?_,
      fun _ => ftpSiteLoad_blind _⟩
    all_goals exact .ite (writeReply_blind _ _) (writeReply_blind _ _)
  · rintro f ⟨⟩
    exact writeReply_blind _ _

theorem dispatch_blind (authenticated : Bool) (cmdLine : Str) :
    Blind (dispatch authenticated cmdLine) := by
  refine .ite (dispatchToHandler_of_zip (Q := Blind) rfl ?_ ?_) (dispatchToHandler_of_zip (Q := Blind) rfl ?_ ?_)
  · simp only [authenticatedCommands, authenticatedHandlers, List.zip_cons_cons,
      List.zip_nil_left, List.forall_mem_cons, List.not_mem_nil, false_implies, implies_true,
      and_true]
    exact ⟨fun _ => ftpUser_blind _, fun _ => ftpPass_blind _, fun _ => listDirectory_blind _ _,
      fun _ => ftpPwd_blind _, fun _ => changeDirectory_blind _ _,
      fun _ => changeDirectory_blind _ _, fun _ => ftpSize_blind _, fun _ => ftpPasv_blind _,
      fun _ => ftpPort_blind _, fun _ => ftpType_blind _, fun _ => writeReply_blind _ _,
      fun _ => ftpMode_blind _, fun _ => ftpRetr_blind _, fun _ => ftpStor_blind _,
      fun _ => ftpAppe_blind _, fun _ => ftpRest_blind _, fun _ => ftpDele_blind _,
      fun _ => ftpMkd_blind _, fun _ => ftpDele_blind _, fun _ => ftpRnfr_blind _,
      fun _ => ftpRnto_blind _, fun _ => listDirectory_blind _ _, fun _ => ftpQuit_blind _,
      fun _ => ftpRein_blind _, fun _ => ftpSite_blind _, fun _ => writeReply_blind _ _,
      fun _ => writeReply_blind _ _⟩
  · rintro f ⟨⟩
    exact writeReply_blind _ _
  · simp only [unauthenticatedCommands, unauthenticatedHandlers, List.zip_cons_cons,
      List.zip_nil_left, List.forall_mem_cons, List.not_mem_nil, false_implies, implies_true,
      and_true]
    exact ⟨fun _ => ftpUser_blind _, fun _ => ftpPass_blind _, fun _ => ftpQuit_blind _,
      fun _ => ftpRein_blind _, fun _ => writeReply_blind _ _⟩
  · rintro f ⟨⟩
    exact writeReply_blind _ _

theorem processCommand_blind (cmdLine : Str) : Blind (processCommand cmdLine) := by
  refine .ite (.pure _) <| .bind (.os _) fun _ => .bind (.emit _) fun _ =>
    .client fun c _ _ _ _ => ?_
  exact dispatch_blind c.authenticated cmdLine

/-! ## Data events -/

theorem cleanupDataResources_blind : Blind cleanupDataResources := by
  have hclose : Blind closeDataSocket := by
    refine .client fun c b o p hp => ?_
    by_cases hd : 0 ≤ c.dataSocket ∧ c.dataSocket ≠ c.passiveSocket
    · have hd' : 0 ≤ c.dataSocket ∧ c.dataSocket ≠ p := ⟨hd.1, by omega⟩
      simp only [if_pos hd, if_pos hd']
      exact .os _
    · have hd' : ¬ (0 ≤ c.dataSocket ∧ c.dataSocket ≠ p) := by omega
      simp only [if_neg hd, if_neg hd']
      exact .pure _
  have hcleanup : Blind runClientCleanup := by
    refine .client fun c _ _ _ _ => ?_
    cases c.dataConnectionCleanup <;> cases c.dataConnectionCallbackArg
    all_goals first | exact .os _ | exact .pure _
  exact .bind hclose fun _ => .bind (.update fun _ _ _ _ h => by simp [Client.norm, h]) fun _ =>
    .bind hcleanup fun _ => .update fun _ _ _ _ h => by simp [Client.norm, h]

theorem awaitDataConnection_blind : Blind awaitDataConnection := by
  have haccept : ∀ s, Blind (acceptDataConnection s) := fun s => .bind (.os _) fun _ =>
    .ite (.bind (.update fun _ _ _ _ h => by simp [Client.norm, h]) fun _ => .pure _) (.pure _)
  have hconnect : ∀ s a, Blind (connectDataConnection s a) := fun s a => .bind (.os _) fun _ =>
    .ite (.bind (.update fun _ _ _ _ h => by simp [Client.norm, h]) fun _ => .pure _) (.pure _)
  refine .client fun c b o p hp => .bind ?_ fun _ => .client fun _ _ _ _ _ => .ite (.pure _) <|
    .bind (.os _) fun _ => .pure _
  by_cases hc : 0 ≤ c.passiveSocket
  · obtain rfl : p = c.passiveSocket := by omega
    simp only [if_pos hc]
    exact haccept _
  · have hn : ¬ 0 ≤ p := by omega
    simp only [if_neg hc, if_neg hn]
    exact hconnect _ _

theorem driveTransfer_blind : Blind driveTransfer := by
  refine .client fun c _ _ _ _ => ?_
  cases c.dataCallback <;> cases c.dataConnectionCallbackArg
  all_goals first | exact .os _ | exact .pure _

theorem dataEvents_blind : Blind dataEvents :=
  .client fun _ _ _ _ _ => .bind (.ite driveTransfer_blind awaitDataConnection_blind) fun _ =>
    .ite (.bind cleanupDataResources_blind fun _ =>
      .bind (.ite (writeReply_blind _ _) (writeReply_blind _ _)) fun _ => .pure _) (.pure _)

/-! ## Runs of one client -/

theorem ClientEvent.run_blind (e : ClientEvent) : Blind e.run := by
  cases e with
  | command line => exact .bind (processCommand_blind line) fun _ => .pure _
  | data => exact .bind dataEvents_blind fun _ => .pure _

theorem ClientEvent.step_alike {c d : Client} (h : c.norm = d.norm) (w w' : World)
    (i : World × ClientEvent) : Alike (step ⟨c, w⟩ i) (step ⟨d, w'⟩ i) :=
  (i.2.run_blind ⟨c, i.1⟩ ⟨d, i.1⟩ ⟨h, rfl⟩).2

end Ftpii
