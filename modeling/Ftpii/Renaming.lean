import Ftpii.Alike
import Ftpii.Confinement
set_option autoImplicit false

/-!
Which file a rename concerns: RNFR keeps the path as text, and RNTO resolves it in the directory
it finds.
-/

namespace Ftpii
open StateProgram Prog

/-! ## What a path denotes -/

/-- The absolute virtual path, memory allowing. -/
def absolute (cwd path : Str) : Option Str :=
  if path.head? = some '/' then some (normalise path)
  else if MAXPATHLEN < cwd.length + path.length + 1 then none
  else some (normalise (cwd ++ path))

/-- The real path that a path denotes in a directory, memory allowing. -/
def denoted (cwd path : Str) : Option Str :=
  if ':' ∈ path then none
  else match absolute cwd path with
    | none => none
    | some abspath =>
      if abspath = ['/'] then some []
      else match findPartition abspath with
        | none => none
        | some p =>
          if MAXPATHLEN < p.prefix_.length + (restOf abspath p).length + 1 then none
          else some (p.prefix_ ++ restOf abspath p)

theorem virtualAbspath_absolute {cwd path a : Str} {w : World}
    (h : (virtualAbspath cwd path w).1 = some a) : absolute cwd path = some a := by
  simp only [virtualAbspath, ite_run, bind_run, pure_run] at h
  unfold absolute
  split at h
  · rename_i hp
    rw [if_pos hp, normaliseAlloc_some h]
  · rename_i hp
    rw [if_neg hp]
    split at h
    · contradiction
    · rename_i hlen
      rw [if_neg hlen]
      split at h
      · rw [normaliseAlloc_some h]
      · contradiction

theorem toRealPath_denoted {cwd path real : Str} {w : World}
    (h : (toRealPath cwd path w).1 = some real) : denoted cwd path = some real := by
  simp only [toRealPath, bind_run, ite_run, pure_run] at h
  unfold denoted
  split at h
  · contradiction
  rename_i hcolon
  rw [if_neg hcolon]
  cases ha : (virtualAbspath cwd path (setErrno ENOENT w).2).1 with
  | none => simp [ha] at h
  | some a =>
    rw [virtualAbspath_absolute ha]
    simp only [ha, ite_run, pure_run] at h ⊢
    split at h
    · rename_i hroot
      rw [if_pos hroot]
      exact h
    · rename_i hroot
      rw [if_neg hroot]
      cases hf : findPartition a with
      | none => simp [hf] at h
      | some p =>
        simp only [hf, ite_run, pure_run, bind_run] at h ⊢
        split at h
        · contradiction
        · rename_i hlen
          rw [if_neg hlen]
          split at h
          · exact h
          · contradiction

theorem denoted_length {cwd path real : Str} (h : denoted cwd path = some real) :
    real.length + 1 ≤ MAXPATHLEN := by
  unfold denoted at h
  split at h
  · contradiction
  split at h
  · contradiction
  split at h
  · obtain rfl := Option.some.inj h
    decide
  split at h
  · contradiction
  split at h
  · contradiction
  · rename_i hfits
    obtain rfl := Option.some.inj h
    rw [List.length_append]
    omega

/-! ## Calls of rename -/

def World.renames (w : World) : List (Str × Str) :=
  w.log.filterMap fun
    | .rename source target => some (source, target)
    | _ => none

def SameRenames (w w' : World) : Prop := w'.renames = w.renames

theorem sameRenames_frame : Frame SameRenames where
  refl _ := rfl
  trans h h' := Eq.trans h' h

theorem sameRenames_sends : Sends (fun _ => True) SameRenames where
  toFrame := sameRenames_frame
  answers _ _ _ := rfl
  shrink _ := rfl
  flags _ _ _ _ _ _ := rfl
  write _ _ _ _ _ _ _ _ := by simp [SameRenames, World.renames, World.record]

theorem sameRenames_lookups : Lookups SameRenames where
  toFrame := sameRenames_frame
  answers _ _ _ := rfl
  errno _ _ := rfl

theorem sameRenames_replies : Replies (OnWorld SameRenames) :=
  .of_sends (OnWorld.frame sameRenames_frame) (fun _ => sameRenames_sends.mono fun _ _ => trivial)
    fun _ _ _ _ => rfl

theorem rename_renames (source target : Str) (w : World) :
    (rename source target w).2.renames = w.renames ++ [(source, target)] := by
  let v := w.record (.rename source target)
  have hv : v.renames = w.renames ++ [(source, target)] := by
    simp [v, World.renames, World.record]
  have hanswer : SameRenames v (fileAnswer v).2 :=
    fileAnswer_keeps sameRenames_frame sameRenames_lookups.answers v
  rw [← hv]
  simp only [rename, fileCall, bind_run, modify_run, ite_run, pure_run]
  split
  · exact hanswer
  · refine Eq.trans ?_ hanswer
    split <;> rfl

/-- vrt_rename calls rename on what both paths denote, or not at all. -/
theorem vrtRename_cases (cwd fromPath toPath : Str) (w : World) :
    SameRenames w (vrtRename cwd fromPath toPath w).2 ∨
      ∃ source target, denoted cwd fromPath = some source ∧ denoted cwd toPath = some target ∧
        (vrtRename cwd fromPath toPath w).2.renames = w.renames ++ [(source, target)] := by
  have hto := toRealPath_keeps sameRenames_lookups cwd toPath w
  simp only [vrtRename, bind_run]
  cases ht : (toRealPath cwd toPath w).1 with
  | none => exact .inl hto
  | some target =>
    simp only [ite_run, pure_run]
    split
    · exact .inl hto
    have hfrom := toRealPath_keeps sameRenames_lookups cwd fromPath (toRealPath cwd toPath w).2
    have hboth := sameRenames_frame.trans hto hfrom
    simp only [withVirtualPath, bind_run]
    cases hf : (toRealPath cwd fromPath (toRealPath cwd toPath w).2).1 with
    | none => exact .inl hboth
    | some source =>
      simp only [ite_run, pure_run]
      split
      · exact .inl hboth
      · refine .inr ⟨source, target, toRealPath_denoted hf, toRealPath_denoted ht, ?_⟩
        rw [rename_renames]
        exact congrArg (· ++ [(source, target)]) hboth

/-! ## RNTO -/

theorem ftpRnto_run (path : Str) (s : Session) : ftpRnto path s =
    if s.client.pendingRename = [] then writeReply 503 "RNFR required first.".toList s
    else
      let r := vrtRename s.client.cwd s.client.pendingRename path s.world
      let t : Session := ⟨s.client, r.2⟩
      let a := if r.1 = 0 then writeReply 250 "Rename successful.".toList t else replyErrno t
      (a.1, { a.2 with client := { a.2.client with pendingRename := [] } }) := by
  simp +instances only [ftpRnto, bind_run, client_run, os_run, ite_run, update_run, pure_run]

/-- Whatever comes of it, RNTO leaves no rename pending. -/
theorem ftpRnto_pending (path : Str) (s : Session) :
    (ftpRnto path s).2.client.pendingRename = [] := by
  rw [ftpRnto_run]
  split
  · assumption
  · rfl

theorem ftpRnto_renames {path : Str} {s : Session} {source target : Str}
    (h : (source, target) ∈ (ftpRnto path s).2.world.renames.drop s.world.renames.length) :
    denoted s.client.cwd s.client.pendingRename = some source := by
  rw [ftpRnto_run] at h
  split at h
  · have hsame : SameRenames s.world (writeReply 503 "RNFR required first.".toList s).2.world :=
      writeReply_keeps sameRenames_replies _ _ s
    rw [hsame, List.drop_length] at h
    contradiction
  · let r := vrtRename s.client.cwd s.client.pendingRename path s.world
    have hreply : SameRenames r.2 (if r.1 = 0 then writeReply 250 "Rename successful.".toList
        ⟨s.client, r.2⟩ else replyErrno ⟨s.client, r.2⟩).2.world := by
      split
      · exact writeReply_keeps sameRenames_replies _ _ ⟨s.client, r.2⟩
      · exact replyErrno_keeps sameRenames_replies ⟨s.client, r.2⟩
    simp only at h
    rw [hreply] at h
    rcases vrtRename_cases s.client.cwd s.client.pendingRename path s.world with
      hsame | ⟨source', target', hd, -, he⟩
    · rw [hsame, List.drop_length] at h
      contradiction
    · rw [he, List.drop_left] at h
      obtain ⟨rfl, rfl⟩ : source = source' ∧ target = target' := by simpa using h
      exact hd

/-! ## Runs -/

def SamePending (c c' : Client) : Prop := c'.pendingRename = c.pendingRename

theorem samePending_frame : Frame SamePending where
  refl _ := rfl
  trans h h' := Eq.trans h' h

/-- No other command touches the pending rename. -/
theorem samePending_handled {line : Str} (hf : ¬ Named "RNFR" line) (ht : ¬ Named "RNTO" line) :
    Handled (OnClient SamePending) line := by
  have hF := samePending_frame
  have hr : Replies (OnClient SamePending) := OnClient.replies hF
  have hs := OnClient.sockets hF
  have hst := OnClient.streams hF
  have hp : ∀ c, UsesPaths (At (OnClient SamePending) c) := fun c => (hst c).toUsesPaths
  have hu : UpdatesTransfer (OnClient SamePending) :=
    ⟨fun _ _ => rfl, fun _ _ => rfl, fun _ _ _ _ _ => rfl⟩
  exact
    { toReplies := hr
      pass := fun _ => ftpPass_keeps hr fun _ => rfl
      list := fun _ _ => listDirectory_keeps hr hs hst hu _ _
      cwd := fun _ path => changeDirectory_keeps hr hp (fun _ _ => rfl) path _
      cdup := fun _ _ => changeDirectory_keeps hr hp (fun _ _ => rfl) _ _
      size := fun _ => ftpSize_keeps hr hp
      pasv := fun _ => ftpPasv_keeps hs (fun _ _ => rfl) hr fun _ _ => rfl
      port := fun _ => ftpPort_keeps hs (fun _ _ => rfl) hr fun _ _ => rfl
      type := fun _ => ftpType_keeps hr fun _ _ => rfl
      retr := fun _ => ftpRetr_keeps hr hs hst hu fun _ _ => rfl
      stor := fun _ => ftpStor_keeps hr hs hst hu fun _ _ => rfl
      appe := fun _ => ftpAppe_keeps hr hs hst hu
      rest := fun _ => ftpRest_keeps hr fun _ _ => rfl
      dele := fun _ => ftpDele_keeps hr hp
      mkd := fun _ => ftpMkd_keeps hr hp
      rnfr := fun hn => absurd hn hf
      rnto := fun hn => absurd hn ht
      nlst := fun _ _ => listDirectory_keeps hr hs hst hu _ _
      rein := fun _ => ftpRein_keeps hs (fun _ _ => rfl) hr fun _ => rfl
      site := fun _ => ftpSite_keeps hr (OnClient.devices hF) (fun _ _ => rfl) (fun _ => rfl)
        (ftpSiteLoad_keeps hr hst fun _ => rfl) }

def ClientEvent.Other : ClientEvent → Prop
  | .command line => ¬ Named "RNFR" line ∧ ¬ Named "RNTO" line
  | .data => True

theorem other_pending {e : ClientEvent} (he : e.Other) (s : Session) (w : World) :
    SamePending s.client (ClientEvent.step s (w, e)).client := by
  cases e with
  | command line => exact processCommand_keeps (samePending_handled he.1 he.2) (fun _ _ _ => rfl) ⟨s.client, w⟩
  | data =>
    exact dataEvents_keeps
      { toReplies := OnClient.replies samePending_frame
        sockets := OnClient.sockets samePending_frame
        streams := fun c => (OnClient.streams samePending_frame c).toClosing
        data := fun _ _ _ _ _ _ _ => rfl } ⟨s.client, w⟩

theorem others_pending {mid : List (World × ClientEvent)} (h : ∀ i ∈ mid, i.2.Other) (s : Session) :
    SamePending s.client (mid.foldl ClientEvent.step s).client := by
  induction mid generalizing s with
  | nil => rfl
  | cons i mid ih =>
    have hstep := other_pending (h i (by simp)) s i.1
    exact samePending_frame.trans hstep (ih (fun j hj => h j (by simp [hj])) _)

/-- In session s RNFR is accepted, other events follow, and session t is about to execute RNTO. -/
structure Announced (s : Session) (w : World) (rnfr : Str) (mid : List (World × ClientEvent))
    (t : Session) (rnto : Str) : Prop where
  login : s.client.authenticated = true
  first : Named "RNFR" rnfr
  others : ∀ i ∈ mid, i.2.Other
  last : t = ((w, .command rnfr) :: mid).foldl ClientEvent.step s
  stays : t.client.authenticated = true
  next : Named "RNTO" rnto

/-- In every run RNTO renames the file that was announced exactly if the announced path denotes the
same in the directory RNTO finds as in the one RNFR found; after it no rename is pending. -/
theorem rename_announced {w w₁ : World} {peer : Int} {address : SockAddr}
    {is mid : List (World × ClientEvent)} {rnfr rnto : Str} {t : Session}
    (h : Announced (clientRun w peer address is) w₁ rnfr mid t rnto) (w₂ : World) :
    (∀ source target, (source, target) ∈
        (ClientEvent.step t (w₂, .command rnto)).world.renames.drop w₂.renames.length →
      (denoted (clientRun w peer address is).client.cwd (argument rnfr) = some source ↔
        denoted (clientRun w peer address is).client.cwd (argument rnfr) =
          denoted t.client.cwd (argument rnfr))) ∧
      (ClientEvent.step t (w₂, .command rnto)).client.pendingRename = [] := by
  generalize clientRun w peer address is = s at h
  have hstep : ClientEvent.step t (w₂, .command rnto) =
      (ftpRnto (argument rnto) (t.handed w₂ rnto)).2 := step_named h.stays h.next (by decide)
  have hannounce : (ClientEvent.step s (w₁, .command rnfr)).client.pendingRename =
      argument rnfr := by
    rw [step_named h.login h.first (by decide)]
    rfl
  have hpending : t.client.pendingRename = argument rnfr := by
    rw [h.last, List.foldl_cons, ← hannounce]
    exact others_pending h.others _
  rw [hstep]
  refine ⟨fun source target hcall => ?_, ftpRnto_pending _ _⟩
  have hsource := ftpRnto_renames (s := t.handed w₂ rnto) hcall
  have hfile : denoted t.client.cwd (argument rnfr) = some source := by
    rw [← hpending]
    exact hsource
  rw [hfile]

def foundDirectory : World := { connectedWorld with answers := { files := [{}] } }

/-- A client in /sd announces a file and goes to /usb. -/
def inSd : Session := clientRun connectedWorld 3 {}
  [(connectedWorld, .command "PASS".toList), (foundDirectory, .command "CWD /sd".toList)]

def goneToUsb (rnfr : Str) : Session :=
  [(connectedWorld, .command rnfr), (foundDirectory, .command "CWD /usb".toList)].foldl
    ClientEvent.step inSd

theorem announced_inSd {rnfr : Str} (h : Named "RNFR" rnfr)
    (hs : (goneToUsb rnfr).client.authenticated = true) :
    Announced inSd connectedWorld rnfr [(foundDirectory, .command "CWD /usb".toList)]
      (goneToUsb rnfr) "RNTO b".toList := by
  refine ⟨by decide +kernel, h, fun i hi => ?_, rfl, hs, by decide⟩
  obtain rfl : i = (foundDirectory, .command "CWD /usb".toList) := by simpa using hi
  exact ⟨by decide, by decide⟩

theorem rename_announced_absolute :
    (ClientEvent.step (goneToUsb "RNFR /sd/a".toList)
        (connectedWorld, .command "RNTO b".toList)).world.renames =
        [("sd:/a".toList, "usb:/b".toList)] ∧
      (ClientEvent.step (goneToUsb "RNFR /sd/a".toList)
        (connectedWorld, .command "RNTO b".toList)).client.pendingRename = [] :=
  ⟨by decide +kernel, (rename_announced
    (announced_inSd (by decide) (by decide +kernel))
    connectedWorld).2⟩

/-- The file announced in one directory is not the one renamed from another. -/
theorem rename_wrong_file :
    Announced inSd connectedWorld "RNFR a".toList [(foundDirectory, .command "CWD /usb".toList)]
        (goneToUsb "RNFR a".toList) "RNTO b".toList ∧
      denoted inSd.client.cwd "a".toList = some "sd:/a".toList ∧
      (ClientEvent.step (goneToUsb "RNFR a".toList)
        (connectedWorld, .command "RNTO b".toList)).world.renames =
        [("usb:/a".toList, "usb:/b".toList)] :=
  ⟨announced_inSd (by decide) (by decide +kernel), by decide +kernel, by decide +kernel⟩

end Ftpii
