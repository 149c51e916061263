import Ftpii.ControlStream
import Ftpii.PassivePorts
import Ftpii.Resolution
set_option autoImplicit false

/-!
Changes of directory in every run: how CWD composes with the resolution of paths, and when CDUP
undoes it.
-/

namespace Ftpii
open StateProgram Prog CString Components

/-! ## Directories that are reached -/

theorem confined_passive (s : Session) (fd : Int) :
    OnClient KeepsConfined s { s with client := { s.client with passiveSocket := fd } } := id

theorem confined_use : HandlerUse (OnClient KeepsConfined) where
  toReplies := OnClient.replies keepsConfined_frame
  sockets := OnClient.sockets keepsConfined_frame
  streams := OnClient.streams keepsConfined_frame
  devices := OnClient.devices keepsConfined_frame
  unprepared _ _ := id
  dataSocket _ _ := id
  prepared _ _ _ _ _ := id
  statics _ _ _ _ _ := id
  type _ _ := id
  pending _ _ := id
  passive := confined_passive
  address _ _ := id

theorem processCommand_keepsConfined (line : Str) :
    Keeps (OnClient KeepsConfined) (processCommand line) := by
  have hu := confined_use
  have hcwd (msg : Str) : ∀ path, Keeps (OnClient KeepsConfined) (changeDirectory path msg) :=
    fun path => changeDirectory_confined path msg
  refine processCommand_keeps (hu.handled (fun _ => ftpPass_keeps hu.toReplies fun _ => id)
    (fun _ path => hcwd _ path) (fun _ _ => hcwd _ _) (fun _ => ?_) (fun _ => ?_)
    (fun _ => ftpRest_keeps hu.toReplies fun _ _ => id) fun _ => ftpRein_confined) fun _ _ _ => id
  · exact ftpRetr_keeps hu.toReplies hu.sockets hu.streams hu.toUpdatesTransfer fun _ _ => id
  · exact ftpStor_keeps hu.toReplies hu.sockets hu.streams hu.toUpdatesTransfer fun _ _ => id

def SameCwd (c c' : Client) : Prop := c'.cwd = c.cwd

theorem sameCwd_frame : Frame SameCwd where
  refl _ := rfl
  trans h h' := Eq.trans h' h

theorem sameCwd_data : DataUse (OnClient SameCwd) where
  toReplies := OnClient.replies sameCwd_frame
  sockets := OnClient.sockets sameCwd_frame
  streams c := (OnClient.streams sameCwd_frame c).toClosing
  data _ _ _ _ _ _ _ := rfl

theorem clientRun_confined (w : World) (peer : Int) (address : SockAddr)
    (is : List (World × ClientEvent)) : Confined (clientRun w peer address is).client.cwd := by
  induction is using List.reverseRecOn with
  | nil => exact confined_root
  | append_singleton is i ih =>
    rw [clientRun_concat]
    obtain ⟨w', e⟩ := i
    cases e with
    | command line => exact processCommand_keepsConfined line ⟨_, w'⟩ ih
    | data =>
      have hsame := dataEvents_keeps sameCwd_data ⟨(clientRun w peer address is).client, w'⟩
      have hstep : (ClientEvent.step (clientRun w peer address is) (w', .data)).client.cwd =
          (clientRun w peer address is).client.cwd := hsame
      rw [hstep]
      exact ih

theorem Reachable.confined {guard : Server → Label → Prop} {s : Server} (h : Reachable guard s)
    {p : Nat} {c : Client} (hp : s.heap p = some c) : Confined c.cwd := by
  obtain ⟨w, peer, address, is, hn⟩ := h.clientRun hp
  have hcwd : (Ftpii.clientRun w peer address is).client.cwd = c.cwd := (congrArg Client.cwd hn :)
  exact hcwd ▸ clientRun_confined w peer address is

/-! ## CWD and the resolution of paths -/

/-- Resolving behind a resolved path is resolving the path that goes through it. -/
theorem resolveIn_append (cs : List Str) {path r : Str} (hne : path ≠ []) (hr : r.head? ≠ some '/') :
    resolveIn (resolveIn cs path) r = resolveIn cs (path ++ '/' :: r) := by
  have hhead : (path ++ '/' :: r).head? = path.head? := by
    cases path with
    | nil => contradiction
    | cons c t => rfl
  simp only [resolveIn, hhead, if_neg hr, resolve_append_slash]

/-- A directory change that fails leaves the directory; after one that succeeds a relative path means
what it means through the path changed to. -/
theorem chdir_composes {guard : Server → Label → Prop} {s : Server} (h : Reachable guard s)
    {p : Nat} {c : Client} (hp : s.heap p = some c) {path : Str} (hne : path ≠ []) (w : World) :
    let result := (vrtChdir c.cwd path w).1.1
    let cwd' := (vrtChdir c.cwd path w).1.2
    (result ≠ 0 → cwd' = c.cwd) ∧
      (result = 0 → ∀ r : Str, r.head? ≠ some '/' → Joins cwd' r → Joins c.cwd (path ++ '/' :: r) →
        ∃ real, ResolvesTo cwd' r real ∧ ResolvesTo c.cwd (path ++ '/' :: r) real) := by
  obtain ⟨cs, hb, hcwd⟩ := h.confined hp
  rw [hcwd]
  rcases vrtChdir_cases hb path w with he | ⟨he, ⟨real, hreal⟩, -⟩
  · rw [he]
    exact ⟨fun _ => rfl, fun hz => by simp at hz⟩
  · rw [he]
    refine ⟨fun hz => absurd rfl hz, fun _ r hr hj hj' => ?_⟩
    have hcolon := (toRealPath_some hb.ordinary hreal).1
    have hordinary := resolveIn_ordinary hb.ordinary path
    have hmem : ':' ∈ path ++ '/' :: r ↔ ':' ∈ r := by simp [hcolon]
    by_cases hc : ':' ∈ r
    · exact ⟨none, resolvesTo_none (toRealPath_colon hc),
        resolvesTo_none (toRealPath_colon (hmem.mpr hc))⟩
    · refine ⟨_, resolvesTo_realPath hordinary hc hj, ?_⟩
      rw [resolveIn_append cs hne hr]
      exact resolvesTo_realPath hb.ordinary (hmem.not.mpr hc) hj'

def loggedInRun : List Label := connecting [{ data := "PASS x\r\n".toList }] ++ [firstTurn]

theorem chdir_composes_sd :
    ∃ c, (Server.after loggedInRun).heap 0 = some c ∧
      ∃ real, ResolvesTo "/sd/".toList "f".toList real ∧
        ResolvesTo c.cwd "/sd/f".toList real := by
  obtain ⟨c, hc, hroot⟩ := exists_client (s := Server.after loggedInRun) (p := 0)
    (fun c => c.cwd = ['/']) (by decide +kernel)
  have hne : "/sd".toList ≠ [] := by decide
  have hcomp := (chdir_composes (after_reachable loggedInRun) hc hne directoryWorld).2
  have hrun : (vrtChdir c.cwd "/sd".toList directoryWorld).1 = (0, "/sd/".toList) := by
    rw [hroot]
    decide +kernel
  rw [hrun] at hcomp
  exact ⟨c, hc, hcomp rfl "f".toList (by decide) (.inr (by decide)) (.inl rfl)⟩

/-! ## CDUP after CWD -/

/-- The handlers' answer tells whether the directory was changed. -/
theorem changeDirectory_replied (path msg : Str) (s : Session) :
    (changeDirectory path msg s).2.Replied 250 msg ↔ (vrtChdir s.client.cwd path s.world).1.1 = 0 := by
  let r := vrtChdir s.client.cwd path s.world
  let t : Session := ⟨{ s.client with cwd := r.1.2 }, r.2⟩
  have hrun : changeDirectory path msg s =
      if r.1.1 = 0 then writeReply 250 msg t else replyErrno t := by
    simp +instances only [changeDirectory, bind_run, client_run, os_run, update_run, ite_run]
    rfl
  rw [hrun]
  split
  · rename_i hz
    exact ⟨fun _ => hz, fun _ => writeReply_replied 250 msg t⟩
  · rename_i hz
    refine ⟨fun h => ?_, fun h => absurd h hz⟩
    have herr : (replyErrno t).2.Replied 550 (t.world.strerror t.world.errno) :=
      writeReply_replied 550 _ t
    exact absurd (h.unique herr).1 (by decide)

theorem vrtChdir_root {cs : List Str} (hcs : ∀ c ∈ cs, Ordinary c) {path : Str}
    (hcolon : ':' ∉ path) (hrel : path.head? ≠ some '/')
    (hfits : (renderDir cs).length + path.length + 1 ≤ MAXPATHLEN) (hr : resolve cs path = [])
    (w : World) :
    (vrtChdir (renderDir cs) path w).1 =
      if w.answers.Allocated 4 then (0, ['/']) else (-1, renderDir cs) := by
  have hroot : normalise (joined (renderDir cs) path) = ['/'] := by
    rw [normalise_joined hcs, resolveIn, if_neg hrel, hr]
    rfl
  obtain ⟨hreal, hans⟩ := toRealPath_root hcolon (.inr hfits) hroot w
  rw [joinAllocations, if_neg hrel] at hreal hans
  have hadd := w.answers.allocated_add 2 2
  by_cases h2 : w.answers.Allocated 2
  · obtain ⟨hv, -⟩ := virtualAbspath_relative hrel hfits (toRealPath (renderDir cs) path w).2
    rw [hans h2, normalise_append hcs, hr] at hv
    rw [if_pos h2] at hreal
    by_cases h4 : (w.answers.allocate 2).Allocated 2
    · simp [vrtChdir, vrtStat, hreal, hv, hadd, h2, h4, renderPath, joinSlash]
    · simp [vrtChdir, vrtStat, hreal, hv, hadd, h2, h4]
  · rw [if_neg h2] at hreal
    simp [vrtChdir, vrtStat, hreal, hadd, h2]

theorem vrtChdir_long {cwd path : Str} (h : ¬ Joins cwd path) (w : World) :
    (vrtChdir cwd path w).1 = (-1, cwd) := by
  simp [vrtChdir, vrtStat, toRealPath_long h]

def chdirAllocations (cs : List Str) : Nat := if cs = [] then 4 else 8

/-- What ".." does below a directory, where a stat would find it. -/
theorem vrtChdir_dotdot {cs : List Str} (hb : Below cs) {n : Str} (hn : Plain n) {w : World}
    (hdir : cs = [] ∨ w.answers.Directory) :
    (vrtChdir (renderDir (cs ++ [n])) "..".toList w).1 =
      if (renderDir cs).length + n.length + 4 ≤ MAXPATHLEN ∧ w.answers.Allocated (chdirAllocations cs)
      then (0, renderDir cs) else (-1, renderDir (cs ++ [n])) := by
  have hord : ∀ c ∈ cs ++ [n], Ordinary c := by
    intro c hc
    rcases List.mem_append.mp hc with hc | hc
    · exact hb.ordinary c hc
    · rw [List.mem_singleton.mp hc]
      exact hn.toOrdinary
  have hr : resolve (cs ++ [n]) "..".toList = cs := by
    simp [resolve, splitSlash, push]
  have hlen : (renderDir (cs ++ [n])).length = (renderDir cs).length + n.length + 1 := by
    simp [renderDir_append]
    omega
  by_cases hfits : (renderDir cs).length + n.length + 4 ≤ MAXPATHLEN
  · have hjoin : (renderDir (cs ++ [n])).length + "..".toList.length + 1 ≤ MAXPATHLEN := by
      rw [hlen]
      exact hfits
    cases cs with
    | nil =>
      rw [vrtChdir_root hord (by decide) (by decide) hjoin hr]
      simp only [hfits, true_and, chdirAllocations, if_true]
      rfl
    | cons c ds =>
      obtain ⟨p, hp⟩ := hb.named c ds rfl
      have hreal : (p.prefix_ ++ joinSlash ds).length + 1 ≤ MAXPATHLEN := by
        cases ds with
        | nil =>
          have ha := p.length_alias_le
          simp only [List.length_append, p.length_prefix, joinSlash, List.length_nil, MAXPATHLEN]
          omega
        | cons d ds =>
          have hpath := length_renderPath (List.cons_ne_nil c (d :: ds))
          rw [length_realPath hp, hpath]
          rw [length_renderDir] at hfits
          omega
      rw [vrtChdir_relative hord (by decide) (by decide) hjoin hr hp hreal hb.ordinary]
      have hd : w.answers.Directory := hdir.resolve_left (by simp)
      simp [hfits, chdirAllocations, hd]
  · have hj : ¬ Joins (renderDir (cs ++ [n])) "..".toList := by
      rintro (hj | hj)
      · exact absurd hj (by decide)
      · rw [hlen] at hj
        exact hfits hj
    rw [vrtChdir_long hj]
    simp [hfits]

theorem renderDir_injective {cs ds : List Str} (hc : ∀ c ∈ cs, Ordinary c)
    (hd : ∀ d ∈ ds, Ordinary d) (h : renderDir cs = renderDir ds) : cs = ds := by
  have hback : ∀ {es : List Str}, (∀ e ∈ es, Ordinary e) → resolve [] (renderDir es) = es := by
    intro es he
    simpa using resolve_renderDir [] he []
  rw [← hback hc, h, hback hd]

theorem renderDir_eq_root {cs : List Str} (h : renderDir cs = ['/']) : cs = [] := by
  have hl := congrArg List.length h
  rw [length_renderDir] at hl
  cases cs with
  | nil => rfl
  | cons c cs => simp at hl

theorem relative_of_plain {n : Str} (hn : Plain n) : n.head? ≠ some '/' := by
  intro he
  exact hn.no_slash (List.mem_of_mem_head? (by simpa using he))

/-- Where an answered CWD to a single component leads. -/
theorem ftpCwd_component {cs : List Str} (hb : Below cs) {c : Client} (hdir : c.cwd = renderDir cs)
    {n : Str} (hn : Plain n) {w : World}
    (hcwd : (ftpCwd n ⟨c, w⟩).2.Replied 250 "CWD command successful.".toList) :
    (ftpCwd n ⟨c, w⟩).2.client.cwd = renderDir (cs ++ [n]) := by
  have hgo := (changeDirectory_replied n _ ⟨c, w⟩).mp hcwd
  have hres : resolveIn cs n = cs ++ [n] := by
    simp [resolveIn, relative_of_plain hn, resolve_ordinary cs hn.toOrdinary]
  have hchange := changeDirectory_cwd n "CWD command successful.".toList ⟨c, w⟩
  refine hchange.trans ?_
  simp only [hdir] at hgo ⊢
  rcases vrtChdir_cases hb n w with he | ⟨he, -⟩
  · rw [he] at hgo
    simp at hgo
  · rw [he, hres]

/-- CDUP after a CWD to a single component succeeds and restores the directory exactly if the join with
".." fits and memory suffices. -/
theorem cdup_undoes_cwd_iff {guard : Server → Label → Prop} {s : Server} (h : Reachable guard s)
    {p : Nat} {c : Client} (hp : s.heap p = some c) {n : Str} (hn : Plain n) {w w' : World}
    (hcwd : (ftpCwd n ⟨c, w⟩).2.Replied 250 "CWD command successful.".toList)
    (hparent : c.cwd = ['/'] ∨ w'.answers.Directory) (rest : Str) :
    let t := (ftpCdup rest ⟨(ftpCwd n ⟨c, w⟩).2.client, w'⟩).2
    t.Replied 250 "CDUP command successful.".toList ∧ t.client.cwd = c.cwd ↔
      c.cwd.length + n.length + 4 ≤ MAXPATHLEN ∧
        w'.answers.Allocated (if c.cwd = ['/'] then 4 else 8) := by
  obtain ⟨cs, hb, hdir⟩ := h.confined hp
  have hmoved := ftpCwd_component hb hdir hn hcwd
  have hroot : c.cwd = ['/'] ↔ cs = [] := by
    rw [hdir]
    exact ⟨renderDir_eq_root, fun he => by rw [he]; rfl⟩
  intro t
  have hback := vrtChdir_dotdot hb hn (w := w') (hparent.imp_left hroot.mp)
  have hreply := changeDirectory_replied "..".toList "CDUP command successful.".toList
    ⟨(ftpCwd n ⟨c, w⟩).2.client, w'⟩
  have hafter := changeDirectory_cwd "..".toList "CDUP command successful.".toList
    ⟨(ftpCwd n ⟨c, w⟩).2.client, w'⟩
  simp only [hmoved, hback] at hreply hafter
  have hcond : (if c.cwd = ['/'] then 4 else 8) = chdirAllocations cs := by
    simp [chdirAllocations, hroot]
  rw [hcond, hdir]
  have ht : t.client.cwd = _ := hafter
  have htr : t.Replied 250 "CDUP command successful.".toList ↔ _ := hreply
  rw [ht, htr]
  by_cases hok : (renderDir cs).length + n.length + 4 ≤ MAXPATHLEN ∧
      w'.answers.Allocated (chdirAllocations cs)
  · rw [if_pos hok]
    exact ⟨fun _ => hok, fun _ => ⟨rfl, rfl⟩⟩
  · rw [if_neg hok]
    exact ⟨fun hz => absurd hz.1 (by simp), fun hc => absurd hc hok⟩

def inAaRun : List Label :=
  connecting [{ data := "PASS x\r\n".toList }] ++ [firstTurn] ++
    [.env { net := [{ data := "CWD /sd/aa\r\n".toList }], files := [{}] }, firstTurn]

set_option maxRecDepth 100000 in
theorem inAa_client : ∃ c, (Server.after inAaRun).heap 0 = some c ∧
    c.cwd = renderDir ["sd".toList, "aa".toList] :=
  exists_client (fun c => c.cwd = renderDir ["sd".toList, "aa".toList]) (by decide +kernel)

theorem aa_ordinary : ∀ c ∈ ["sd".toList, "aa".toList], Ordinary c := by
  simp only [List.forall_mem_cons, List.not_mem_nil, false_implies, implies_true, and_true]
  exact ⟨⟨by decide, by decide, by decide, by decide⟩, ⟨by decide, by decide, by decide, by decide⟩⟩

theorem cwd_inAa {c : Client} (hc : c.cwd = renderDir ["sd".toList, "aa".toList]) {n : Str}
    (hn : Plain n) (hlen : n.length ≤ 1016) :
    (ftpCwd n ⟨c, directoryWorld⟩).2.Replied 250 "CWD command successful.".toList := by
  refine (changeDirectory_replied n _ ⟨c, directoryWorld⟩).mpr ?_
  have hres := resolve_ordinary ["sd".toList, "aa".toList] hn.toOrdinary
  have hl : (renderDir ["sd".toList, "aa".toList]).length = 7 := by decide
  have hsd : Partition.sd.Names "sd".toList := by decide +kernel
  have hprefix : Partition.sd.prefix_.length = 4 := by decide
  have hreal : (Partition.sd.prefix_ ++ joinSlash ["aa".toList, n]).length + 1 ≤ MAXPATHLEN := by
    have ha : "aa".toList.length = 2 := by decide
    simp only [List.length_append, joinSlash, List.length_cons, hprefix, ha, MAXPATHLEN]
    omega
  have hord : ∀ d ∈ "sd".toList :: ["aa".toList, n], Ordinary d := by
    intro d hd
    rcases List.mem_append.mp (show d ∈ ["sd".toList, "aa".toList] ++ [n] from hd) with hd | hd
    · exact aa_ordinary d hd
    · rw [List.mem_singleton.mp hd]
      exact hn.toOrdinary
  have hrun := vrtChdir_relative aa_ordinary hn.no_colon (relative_of_plain hn)
    (by rw [hl]; simp only [MAXPATHLEN]; omega) hres hsd hreal hord directoryWorld
  simp only [hc, hrun]
  rw [if_pos (by decide)]

theorem cdup_undoes_cwd_b :
    ∃ c, (Server.after inAaRun).heap 0 = some c ∧
      (ftpCdup [] ⟨(ftpCwd ['b'] ⟨c, directoryWorld⟩).2.client, directoryWorld⟩).2.client.cwd =
        c.cwd := by
  obtain ⟨c, hc, hdir⟩ := inAa_client
  have hb : Plain ['b'] := ⟨⟨by decide, by decide, by decide, by decide⟩, by decide⟩
  have hroom : directoryWorld.answers.Directory := by decide
  have hiff := cdup_undoes_cwd_iff (after_reachable inAaRun) hc hb (cwd_inAa hdir hb (by decide))
    (.inr hroom) []
  refine ⟨c, hc, (hiff.mpr ⟨?_, ?_⟩).2⟩
  · rw [hdir]
    decide
  · rw [hdir]
    decide

/-- A directory of 1022 characters can be entered, but not left by CDUP. -/
theorem cdup_stuck :
    ∃ c, (Server.after inAaRun).heap 0 = some c ∧
      let n := List.replicate 1014 'b'
      let s := (ftpCwd n ⟨c, directoryWorld⟩).2
      s.Replied 250 "CWD command successful.".toList ∧ s.client.cwd.length = 1022 ∧
        ¬ ((ftpCdup [] ⟨s.client, directoryWorld⟩).2.Replied 250
            "CDUP command successful.".toList ∧
          (ftpCdup [] ⟨s.client, directoryWorld⟩).2.client.cwd = c.cwd) := by
  obtain ⟨c, hc, hdir⟩ := inAa_client
  have hb : Plain (List.replicate 1014 'b') :=
    ⟨ordinary_replicate (by decide), fun h => absurd (List.eq_of_mem_replicate h) (by decide)⟩
  have hlen : (List.replicate 1014 'b').length = 1014 := List.length_replicate
  have hroot : (renderDir ["sd".toList, "aa".toList]).length = 7 := by decide
  have hcwd := cwd_inAa hdir hb (by omega)
  have hbelow : Below ["sd".toList, "aa".toList] := by
    obtain ⟨cs, hbelow, he⟩ := (after_reachable inAaRun).confined hc
    exact renderDir_injective hbelow.ordinary aa_ordinary (he.symm.trans hdir) ▸ hbelow
  refine ⟨c, hc, hcwd, ?_, ?_⟩
  · rw [ftpCwd_component hbelow hdir hb hcwd, renderDir_append]
    simp only [List.length_append, hroot, hlen]
    rfl
  · have hback := vrtChdir_dotdot hbelow hb (w := directoryWorld) (.inr (by decide))
    rw [if_neg (by rw [hroot, hlen, MAXPATHLEN]; omega)] at hback
    rintro ⟨hreply, -⟩
    have hzero := (changeDirectory_replied _ _ _).mp hreply
    simp only [ftpCwd_component hbelow hdir hb hcwd, hback] at hzero
    simp at hzero

end Ftpii
