import Ftpii.ActivePort
import Ftpii.Tokenizer
set_option autoImplicit false

/-!
Passwords: what each way of setting one stores, and which PASS lines it admits. The tokenizer
drops the spaces around an argument, so PASS never sees them.
-/

namespace Ftpii
open StateProgram Prog CString Words

/-! ## PASS -/

theorem splitCommand_pass (q : Str) : splitCommand ("PASS ".toList ++ q) = ("PASS".toList, trim ' ' q) := by
  have hsplit := splitCommand_word (u := "PASS".toList) (t := ' ' :: q) (by decide) (by decide)
    (.inr ⟨q, rfl⟩)
  simpa using hsplit

theorem named_pass (q : Str) : Named "PASS" ("PASS ".toList ++ q) := by
  rw [Named, splitCommand_pass]
  exact caseEq_iff.mpr rfl

theorem argument_pass (q : Str) : argument ("PASS ".toList ++ q) = trim ' ' q := by
  rw [argument, splitCommand_pass]

/-- PASS logs in exactly with the trimmed argument as the password, or without a password. -/
theorem pass_line (q : Str) (t : Session) :
    let r := (processCommand ("PASS ".toList ++ q) t).2
    (r.Replied 230 "User logged in, proceed.".toList ↔
        compareFtpPassword t.world.password (trim ' ' q) = true) ∧
      (r.Replied 530 "Login incorrect.".toList ↔
        ¬ compareFtpPassword t.world.password (trim ' ' q) = true) ∧
      (r.client.authenticated = true ↔ t.client.authenticated = true ∨
        compareFtpPassword t.world.password (trim ' ' q) = true) := by
  let u : Session := t.emitted (.command ("PASS ".toList ++ q) t.world.password)
  have hrun : processCommand ("PASS ".toList ++ q) t = ftpPass (trim ' ' q) u := by
    rw [processCommand_run (by simp), dispatch_both (named_pass q) ftpPass rfl rfl, argument_pass]
  have hpassword : u.world.password = t.world.password := rfl
  intro r
  have hr : r = (ftpPass (trim ' ' q) u).2 := congrArg Prod.snd hrun
  rw [hr, ftpPass_run, hpassword]
  cases compareFtpPassword t.world.password (trim ' ' q) with
  | true =>
    have hreply := writeReply_replied 230 "User logged in, proceed.".toList
      { u with client := { u.client with authenticated := true } }
    exact ⟨iff_of_true hreply rfl,
      iff_of_false (fun h => absurd (hreply.unique h).1 (by decide)) (by simp),
      iff_of_true rfl (.inr rfl)⟩
  | false =>
    have hreply := writeReply_replied 530 "Login incorrect.".toList u
    exact ⟨iff_of_false (fun h => absurd (hreply.unique h).1 (by decide)) (by simp),
      iff_of_true hreply (by simp), .inl, fun h => h.resolve_right (by simp)⟩

/-! ## Setting the password -/

def SamePassword (w w' : World) : Prop := w'.password = w.password

theorem samePassword_frame : Frame SamePassword where
  refl _ := rfl
  trans h h' := Eq.trans h' h

theorem SameStatics.password {w w' : World} (h : SameStatics w w') : SamePassword w w' := h.2.2

theorem samePassword_sockets : UsesSockets SamePassword :=
  sameStatics_sockets.imp samePassword_frame fun _ _ h => h.password

theorem samePassword_replies : Replies (OnWorld SamePassword) :=
  .of_sends (OnWorld.frame samePassword_frame)
    (fun _ => samePassword_sockets.toSends.mono fun _ _ => trivial) fun _ _ _ _ => rfl

inductive Setter where
  | argument | directory | site
  deriving DecidableEq, Repr

/-- What is stored of a password: SITE PASSWD is a command line like PASS. -/
def Setter.stored : Setter → Str → Str
  | .site, p => trim ' ' p
  | _, p => p

/-- The executable lies in a directory named by the prefix, in any case, and p. -/
structure ExecutableIn (p executable : Str) : Prop where
  path : ∃ parent pre file, executable = parent ++ pre ++ p ++ '/' :: file ∧
    (parent = [] ∨ parent.getLast? = some '/') ∧ caseEq APP_DIR_PREFIX pre = true ∧
    '/' ∉ p ∧ '/' ∉ file ∧ (parent ++ pre ++ p).length < MAXPATHLEN - 1

/-- The world as the password p has just been set. -/
def Setter.Sets (p : Str) : Setter → World → Prop
  | .argument, w => ∃ executable rest v, w = (initialisePassword (executable :: p :: rest) v).2
  | .directory, w => ∃ executable v, ExecutableIn p executable ∧ w = (initialisePassword [executable] v).2
  | .site, w => ∃ t : Session, t.client.authenticated = true ∧
      w = (processCommand ("SITE PASSWD ".toList ++ p) t).2.world

theorem basename_append {parent name : Str} (hp : parent = [] ∨ parent.getLast? = some '/')
    (hn : '/' ∉ name) : basename (parent ++ name) = name := by
  have hkept : ∀ c ∈ name.reverse, decide (c ≠ '/') = true := fun c hc => by
    have hne : c ≠ '/' := fun he => hn (by simpa [he] using hc)
    simpa using hne
  rw [basename, List.reverse_append, List.takeWhile_append_of_pos hkept]
  rcases hp with rfl | hp
  · simp
  · obtain ⟨front, rfl⟩ := List.getLast?_eq_some_iff.mp hp
    simp

theorem dirname_append {dir file : Str} (hl : dir.length < MAXPATHLEN - 1) (hf : '/' ∉ file) :
    dirname (dir ++ '/' :: file) = dir := by
  have htake : (dir ++ '/' :: file).take 1023 = dir ++ '/' :: file.take (1022 - dir.length) := by
    rw [MAXPATHLEN] at hl
    have hcount : 1023 - dir.length = 1022 - dir.length + 1 := by omega
    rw [List.take_append, List.take_of_length_le (by omega), hcount, List.take_succ_cons]
  have hkept : ∀ c ∈ (file.take (1022 - dir.length)).reverse, decide (c ≠ '/') = true := fun c hc => by
    have hne : c ≠ '/' := fun he =>
      hf (List.mem_of_mem_take (by simpa [he] using hc))
    simpa using hne
  simp only [dirname, htake, List.mem_append, List.mem_cons, true_or, or_true, if_true]
  rw [List.reverse_append, List.reverse_cons, List.append_assoc,
    List.dropWhile_append_of_pos hkept]
  simp

/-- The password of an executable's directory is what follows the prefix. -/
theorem executable_password {p executable : Str} (h : ExecutableIn p executable) (v : World) :
    (initialisePassword [executable] v).2.password = some p := by
  obtain ⟨parent, pre, file, rfl, hparent, hpre, hp, hfile, hl⟩ := h.path
  have hfold := caseEq_iff.mp hpre
  have hlen : pre.length = APP_DIR_PREFIX.length := by
    simpa using (congrArg List.length hfold).symm
  have hslash : '/' ∉ pre := by
    intro hm
    have hmem : '/' ∈ fold APP_DIR_PREFIX := by
      rw [hfold]
      exact List.mem_map.mpr ⟨'/', hm, rfl⟩
    exact absurd hmem (by decide)
  have hdir : basename (dirname (parent ++ pre ++ p ++ '/' :: file)) = pre ++ p := by
    rw [dirname_append hl hfile, List.append_assoc]
    exact basename_append hparent (by simp [hslash, hp])
  have htake : (pre ++ p).take APP_DIR_PREFIX.length = pre := by rw [← hlen, List.take_left]
  have hdrop : (pre ++ p).drop APP_DIR_PREFIX.length = p := by rw [← hlen, List.drop_left]
  simp only [initialisePassword, setPasswordFromExecutable, hdir, htake, hpre, if_true, hdrop]
  rfl

theorem splitCommand_passwd (p : Str) :
    splitCommand (trim ' ' ("PASSWD ".toList ++ p)) = ("PASSWD".toList, trim ' ' p) := by
  have hword : ' ' ∉ "PASSWD".toList := by decide
  have hstart := trimStart_word hword (by decide) (' ' :: p)
  have hend := trimEnd_word hword (' ' :: p)
  have htrim : trim ' ' ("PASSWD ".toList ++ p) = "PASSWD".toList ++ trimEnd ' ' (' ' :: p) := by
    rw [trim, ← hend, ← hstart]
    rfl
  rw [htrim, splitCommand_word (by decide) (by decide) (WordEnds.trimEnd (.inr ⟨p, rfl⟩)),
    trim_trimEnd, trim_sep]

theorem splitCommand_site (p : Str) : splitCommand ("SITE PASSWD ".toList ++ p) =
    ("SITE".toList, trim ' ' ("PASSWD ".toList ++ p)) := by
  have hsplit := splitCommand_word (u := "SITE".toList) (t := ' ' :: ("PASSWD ".toList ++ p))
    (by decide) (by decide) (.inr ⟨_, rfl⟩)
  rw [trim_sep] at hsplit
  exact hsplit

theorem site_password (p : Str) {t : Session} (ht : t.client.authenticated = true) :
    (processCommand ("SITE PASSWD ".toList ++ p) t).2.world.password = some (trim ' ' p) := by
  have hsite : Named "SITE" ("SITE PASSWD ".toList ++ p) := by
    rw [Named, splitCommand_site]
    exact caseEq_iff.mpr rfl
  have hpasswd : Named "PASSWD" (argument ("SITE PASSWD ".toList ++ p)) := by
    rw [Named, argument, splitCommand_site, splitCommand_passwd]
    exact caseEq_iff.mpr rfl
  have harg : argument (argument ("SITE PASSWD ".toList ++ p)) = trim ' ' p := by
    simp only [argument, splitCommand_site, splitCommand_passwd]
  let u : Session := t.emitted (.command ("SITE PASSWD ".toList ++ p) t.world.password)
  have hhandler : ftpSite (argument ("SITE PASSWD ".toList ++ p)) = ftpSitePasswd (trim ' ' p) := by
    have hentry : siteHandlers.getD
        (siteCommands.findIdx (caseEq · "PASSWD".toList)) ftpUnknown = ftpSitePasswd := rfl
    rw [ftpSite, dispatchToHandler_named hpasswd, harg, hentry]
  have hrun : processCommand ("SITE PASSWD ".toList ++ p) t = ftpSitePasswd (trim ' ' p) u := by
    have hentry : authenticatedHandlers.getD
        (authenticatedCommands.findIdx (caseEq · "SITE".toList)) ftpUnknown = ftpSite := by
      have hindex : authenticatedCommands.findIdx (caseEq · "SITE".toList) = 24 := by decide
      rw [hindex, authenticatedHandlers]
      simp only [List.getD_cons_succ, List.getD_cons_zero]
    rw [processCommand_run (by simp), ht, dispatch, if_pos rfl, dispatchToHandler_named hsite,
      hentry, hhandler]
  rw [hrun]
  exact writeReply_keeps samePassword_replies 200 "Password changed.".toList
    ⟨u.client, { u.world with password := some (trim ' ' p) }⟩

theorem Setter.Sets.password {p : Str} {setter : Setter} {w : World} (h : setter.Sets p w) :
    w.password = some (setter.stored p) := by
  cases setter with
  | argument =>
    obtain ⟨executable, rest, v, rfl⟩ := h
    rfl
  | directory =>
    obtain ⟨executable, v, hin, rfl⟩ := h
    exact executable_password hin v
  | site =>
    obtain ⟨t, ht, rfl⟩ := h
    exact site_password p ht

/-! ## The round trip -/

/-- Whichever way the password was set, PASS logs in while it is in force exactly when its trimmed
argument is what was stored: the text itself, or for SITE PASSWD the trimmed text. -/
theorem password_round_trip {p : Str} {setter : Setter} {w : World} (h : setter.Sets p w)
    {t : Session} (ht : t.world.password = w.password) (q : Str) :
    let r := (processCommand ("PASS ".toList ++ q) t).2
    (r.Replied 230 "User logged in, proceed.".toList ↔ trim ' ' q = setter.stored p) ∧
      (r.Replied 530 "Login incorrect.".toList ↔ trim ' ' q ≠ setter.stored p) ∧
      (r.client.authenticated = true ↔
        t.client.authenticated = true ∨ trim ' ' q = setter.stored p) := by
  have hline := pass_line q t
  have hcompare : compareFtpPassword t.world.password (trim ' ' q) = true ↔
      trim ' ' q = setter.stored p := by
    rw [ht, h.password]
    simp [compareFtpPassword, eq_comm]
  simp only [hcompare] at hline
  exact hline

theorem password_round_trip_inner_space :
    let w := (initialisePassword ["sd:/apps/ftpii_my secret/boot.dol".toList] directoryWorld).2
    (processCommand "PASS my secret".toList ⟨newClient w 3 {}, w⟩).2.client.authenticated = true := by
  have hin : ExecutableIn "my secret".toList "sd:/apps/ftpii_my secret/boot.dol".toList :=
    ⟨⟨"sd:/apps/".toList, "ftpii_".toList, "boot.dol".toList, by decide, by decide, by decide,
      by decide, by decide, by decide⟩⟩
  intro w
  have hset : Setter.directory.Sets "my secret".toList w := ⟨_, directoryWorld, hin, rfl⟩
  have htrip := password_round_trip hset (t := ⟨newClient w 3 {}, w⟩) rfl "my secret".toList
  exact htrip.2.2.mpr (.inr (by decide))

/-- With the argument " a" as the password, its own PASS fails; with "a", that of "a " does not. -/
theorem password_spaces :
    let w := (initialisePassword ["boot.dol".toList, " a".toList] directoryWorld).2
    let w' := (initialisePassword ["boot.dol".toList, "a".toList] directoryWorld).2
    (processCommand "PASS  a".toList ⟨newClient w 3 {}, w⟩).2.client.authenticated = false ∧
      (processCommand "PASS a ".toList ⟨newClient w' 3 {}, w'⟩).2.client.authenticated = true := by
  intro w w'
  have hown := (pass_line " a".toList ⟨newClient w 3 {}, w⟩).2.2
  have hother := (pass_line "a ".toList ⟨newClient w' 3 {}, w'⟩).2.2
  refine ⟨?_, hother.mpr (.inr (by decide))⟩
  rw [← Bool.not_eq_true]
  exact hown.not.mpr (by decide)

end Ftpii
