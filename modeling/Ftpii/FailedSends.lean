import Ftpii.Authentication
import Ftpii.ControlStream
import Ftpii.DataTraffic
set_option autoImplicit false

/-!
A send that fails inside a transfer: which buffers a callback gives to send_exact, what comes of
each, and what the client is told in the end.
-/

namespace Ftpii
open StateProgram Prog

/-! ## The sends of one call -/

def sendEntry (line : Str → Stat → Str) (dataSocket : Int) (dir : Nat) : Os (Unit ⊕ Int) := do
  let (ended, filename, st) ← vrtDirnext dir
  if ended ≠ 0 then pure (.inr 0)
  else do
    let result ← sendExact dataSocket (line filename st)
    pure (if result < 0 then .inr result else .inl ())

/-- send_nlst and send_list, for as many entries as n. -/
def sendEntries (line : Str → Stat → Str) (dataSocket : Int) (dir n : Nat) : Os Int :=
  Prog.iterate n (fun _ => sendEntry line dataSocket dir) (fun _ => 0) ()

def entriesLeft (w : World) : Nat := w.answers.files.length + VIRTUAL_PARTITIONS.length + 1

def nlstLine (filename : Str) (_st : Stat) : Str := filename ++ CRLF

theorem sendNlst_run (dataSocket : Int) (dir : Nat) (w : World) :
    sendNlst dataSocket dir w = sendEntries nlstLine dataSocket dir (entriesLeft w) w := rfl

theorem sendList_run (dataSocket : Int) (dir : Nat) (w : World) :
    sendList dataSocket dir w = sendEntries listLine dataSocket dir (entriesLeft w) w := rfl

/-- The buffers of a listing with the results of sending them. -/
def entryAttempts (line : Str → Stat → Str) (dataSocket : Int) (dir : Nat) :
    Nat → World → List (Str × Int)
  | 0, _ => []
  | n + 1, w =>
    let e := vrtDirnext dir w
    if e.1.1 ≠ 0 then []
    else
      let buf := line e.1.2.1 e.1.2.2
      let r := sendExact dataSocket buf e.2
      (buf, r.1) :: if r.1 < 0 then [] else entryAttempts line dataSocket dir n r.2

/-- The buffers a callback gives to send_exact, with the results. -/
def attempts (callback : Callback) (dataSocket : Int) (arg : Nat) (w : World) : List (Str × Int) :=
  match callback with
  | .sendNlst => entryAttempts nlstLine dataSocket arg (entriesLeft w) w
  | .sendList => entryAttempts listLine dataSocket arg (entriesLeft w) w
  | .sendFromFile =>
    let b := fread arg FREAD_BUFFER_SIZE w
    if 0 < b.1.length then [(b.1, (sendExact dataSocket b.1 b.2).1)] else []
  | .recvToFile => []

def SameSends (w w' : World) : Prop := w'.socks = w.socks ∧ w'.sent = w.sent

theorem sameSends_streaming : Streaming (fun _ => True) SameSends where
  refl _ := ⟨rfl, rfl⟩
  trans h h' := ⟨h'.1.trans h.1, h'.2.trans h.2⟩
  answers _ _ _ := ⟨rfl, rfl⟩
  errno _ _ := ⟨rfl, rfl⟩
  flushed _ _ _ _ _ _ _ _ := ⟨rfl, rfl⟩
  stream _ _ _ _ _ _ _ _ := ⟨rfl, rfl⟩

/-- What sends with these results put on their socket: whole buffers up to the one that failed, and a
part of that. -/
inductive PutOut : List (Str × Int) → Str → Prop where
  | nil : PutOut [] []
  | whole {buf bs : Str} {sends : List (Str × Int)} : PutOut sends bs →
      PutOut ((buf, 0) :: sends) (buf ++ bs)
  | part {buf : Str} {r : Int} {n : Nat} : r < 0 → n < buf.length → PutOut [(buf, r)] (buf.take n)

theorem PutOut.all {sends : List (Str × Int)} {bs : Str} (h : PutOut sends bs)
    (hok : ∀ x ∈ sends, ¬ x.2 < 0) : (∀ x ∈ sends, x.2 = 0) ∧ bs = sends.flatMap Prod.fst := by
  induction h with
  | nil => exact ⟨by simp, rfl⟩
  | whole _ ih =>
    obtain ⟨hzero, hbs⟩ := ih fun x hx => hok x (List.mem_cons_of_mem _ hx)
    exact ⟨by simpa using hzero, by rw [List.flatMap_cons, hbs]⟩
  | part hr _ => exact absurd hr (hok _ (List.mem_singleton.mpr rfl))

/-- What send_exact reports is what it put on the socket, if that is open. -/
theorem sendExact_puts (fd : Int) (buf : Str) (w : World) :
    let r := sendExact fd buf w
    ∃ n, (r.1 = 0 ∧ n = buf.length ∨ r.1 < 0 ∧ n < buf.length) ∧ ∀ k, w.socks fd = some k →
      r.2.sent k.id = w.sent k.id ++ buf.take n ∧ ∃ k', r.2.socks fd = some k' ∧ k'.id = k.id := by
  cases hk : w.socks fd with
  | none =>
    rw [sendExact_closed hk]
    by_cases hb : buf = []
    · exact ⟨0, .inl ⟨if_pos hb, by simp [hb]⟩, by simp⟩
    · rw [if_neg hb]
      exact ⟨0, .inr ⟨by simp [EBADF], List.length_pos_of_ne_nil hb⟩, by simp⟩
  | some k =>
    obtain ⟨n, hs, hend⟩ := sendExact_sent hk buf
    refine ⟨n, hend.imp_right fun h => ⟨h.1, h.2.1⟩, fun l hl => ?_⟩
    obtain rfl := Option.some.inj hl
    exact ⟨by rw [hs.sent, Function.update_self], hs.object⟩

theorem sendEntries_succ (line : Str → Stat → Str) (dataSocket : Int) (dir n : Nat) (w : World) :
    sendEntries line dataSocket dir (n + 1) w =
      let e := vrtDirnext dir w
      if e.1.1 ≠ 0 then (0, e.2)
      else
        let r := sendExact dataSocket (line e.1.2.1 e.1.2.2) e.2
        if r.1 < 0 then r else sendEntries line dataSocket dir n r.2 := by
  simp only [sendEntries, Prog.iterate, sendEntry, bind_run, ite_run, pure_run]
  by_cases he : (vrtDirnext dir w).1.1 ≠ 0
  · simp [he]
  · by_cases hr : (sendExact dataSocket (line (vrtDirnext dir w).1.2.1 (vrtDirnext dir w).1.2.2)
        (vrtDirnext dir w).2).1 < 0
    · simp [he, hr]
    · simp [he, hr]

section Listings

variable (line : Str → Stat → Str) (dataSocket : Int) (dir : Nat)

theorem entryAttempts_result {n : Nat} {w : World} {x : Str × Int}
    (hx : x ∈ entryAttempts line dataSocket dir n w) (hneg : x.2 < 0) :
    (sendEntries line dataSocket dir n w).1 = x.2 := by
  induction n generalizing w with
  | zero => simp [entryAttempts] at hx
  | succ n ih =>
    rw [sendEntries_succ]
    simp only [entryAttempts] at hx ⊢
    split at hx
    · simp at hx
    · rename_i he
      rw [if_neg he]
      rcases List.mem_cons.mp hx with rfl | hx
      · rw [if_pos hneg]
      · split at hx
        · simp at hx
        · rename_i hr
          rw [if_neg hr]
          exact ih hx

theorem entryAttempts_putOut (n : Nat) (w : World) :
    ∃ data, PutOut (entryAttempts line dataSocket dir n w) data ∧
      ∀ k, w.socks dataSocket = some k →
        (sendEntries line dataSocket dir n w).2.sent k.id = w.sent k.id ++ data := by
  induction n generalizing w with
  | zero => exact ⟨[], .nil, fun k _ => by simp [sendEntries, Prog.iterate]⟩
  | succ n ih =>
    obtain ⟨hsocks, hsent⟩ := vrtDirnext_keeps sameSends_streaming (h := dir) trivial w
    rw [sendEntries_succ]
    simp only [entryAttempts]
    split
    · exact ⟨[], .nil, fun k _ => by simp [hsent]⟩
    · let buf := line (vrtDirnext dir w).1.2.1 (vrtDirnext dir w).1.2.2
      obtain ⟨m, hend, hm⟩ := sendExact_puts dataSocket buf (vrtDirnext dir w).2
      simp only [hsocks, hsent] at hm
      rcases hend with ⟨hr, rfl⟩ | ⟨hr, hlt⟩
      · obtain ⟨data, hput, hdata⟩ := ih (sendExact dataSocket buf (vrtDirnext dir w).2).2
        rw [hr, if_neg (lt_irrefl 0), if_neg (lt_irrefl 0)]
        refine ⟨buf ++ data, .whole hput, fun k hk => ?_⟩
        obtain ⟨hs, k', hk', hid⟩ := hm k hk
        rw [← hid, hdata k' hk', hid, hs, List.take_length, List.append_assoc]
      · rw [if_pos hr, if_pos hr]
        exact ⟨buf.take m, .part hr hlt, fun k hk => (hm k hk).1⟩

end Listings

theorem sendFromFile_run (s : Int) (f : Nat) (w : World) :
    sendFromFile s f w =
      let b := fread f FREAD_BUFFER_SIZE w
      let r := if 0 < b.1.length then sendExact s b.1 b.2 else (0, b.2)
      if r.1 < 0 then r
      else if b.1.length < FREAD_BUFFER_SIZE then (if (feof f r.2).1 then 0 else -1, r.2)
      else (-EAGAIN, r.2) := by
  simp only [sendFromFile, bind_run, ite_run, pure_run]
  rfl

/-- Whatever the callback, it reports the result of the send that failed. -/
theorem attempts_result {callback : Callback} {dataSocket : Int} {arg : Nat} {w : World}
    {x : Str × Int} (hx : x ∈ attempts callback dataSocket arg w) (hneg : x.2 < 0) :
    (runCallback callback dataSocket arg w).1 = x.2 := by
  cases callback with
  | sendNlst =>
    rw [runCallback, sendNlst_run]
    exact entryAttempts_result nlstLine dataSocket arg hx hneg
  | sendList =>
    rw [runCallback, sendList_run]
    exact entryAttempts_result listLine dataSocket arg hx hneg
  | sendFromFile =>
    simp only [attempts] at hx
    split at hx
    · rename_i hb
      obtain rfl := List.mem_singleton.mp hx
      simp only [runCallback, sendFromFile_run, if_pos hb]
      rw [if_pos hneg]
    · simp at hx
  | recvToFile => simp [attempts] at hx

/-- Whatever the callback of a download or listing, it puts out what its sends took. -/
theorem attempts_putOut {callback : Callback} (hcb : callback ≠ .recvToFile) (dataSocket : Int)
    (arg : Nat) (w : World) :
    ∃ data, PutOut (attempts callback dataSocket arg w) data ∧
      ∀ k, w.socks dataSocket = some k →
        (runCallback callback dataSocket arg w).2.sent k.id = w.sent k.id ++ data := by
  cases callback with
  | sendNlst =>
    rw [runCallback, sendNlst_run]
    exact entryAttempts_putOut nlstLine dataSocket arg (entriesLeft w) w
  | sendList =>
    rw [runCallback, sendList_run]
    exact entryAttempts_putOut listLine dataSocket arg (entriesLeft w) w
  | sendFromFile =>
    obtain ⟨hsocks, hsent⟩ := fread_keeps sameSends_streaming (h := arg) trivial
      FREAD_BUFFER_SIZE w
    let b := fread arg FREAD_BUFFER_SIZE w
    have hfinal : ∀ r : Int × World, ((if r.1 < 0 then r
        else if b.1.length < FREAD_BUFFER_SIZE then (if (feof arg r.2).1 then 0 else -1, r.2)
        else (-EAGAIN, r.2)) : Int × World).2 = r.2 := by
      intro r
      split
      · rfl
      · split <;> rfl
    simp only [attempts, runCallback, sendFromFile_run]
    rw [hfinal]
    split
    · obtain ⟨n, hend, hn⟩ := sendExact_puts dataSocket b.1 b.2
      simp only [b, hsocks, hsent] at hn
      rcases hend with ⟨hr, rfl⟩ | ⟨hr, hlt⟩
      · rw [hr]
        refine ⟨b.1 ++ [], .whole .nil, fun k hk => ?_⟩
        rw [(hn k hk).1, List.take_length, List.append_nil]
      · exact ⟨b.1.take n, .part hr hlt, fun k hk => (hn k hk).1⟩
    · exact ⟨[], .nil, fun k _ => by simp [hsent]⟩
  | recvToFile => exact absurd rfl hcb

/-! ## What the client is told -/

/-- The client's data callback is under way on a data connection. -/
structure Session.Transferring (s : Session) (callback : Callback) (arg : Nat) : Prop where
  connected : s.client.dataConnectionConnected = true
  callback : s.client.dataCallback = some callback
  arg : s.client.dataConnectionCallbackArg = some arg

/-- A call of process_data_events in a world answers with this code. -/
def Session.Answers (s : Session) (w : World) (code : Nat) : Prop :=
  ∃ text r, (ClientEvent.step s (w, .data)).story =
    w.hist s.client.conn ++ [.reply code text r]

theorem Session.Answers.unique {s : Session} {w : World} {a b : Nat} (h : s.Answers w a)
    (h' : s.Answers w b) : a = b := by
  obtain ⟨t, r, he⟩ := h
  obtain ⟨t', r', he'⟩ := h'
  have hlast := List.append_cancel_left (he.symm.trans he')
  simp only [List.cons.injEq, Event.reply.injEq, and_true] at hlast
  exact hlast.1

theorem Session.Transferring.step {s : Session} {callback : Callback} {arg : Nat}
    (h : s.Transferring callback arg) (w : World) :
    dataStep ⟨s.client, w⟩ =
      ((runCallback callback s.client.dataSocket arg w).1,
        ⟨s.client, (runCallback callback s.client.dataSocket arg w).2⟩) := by
  simp only [dataStep, bind_run, client_run, h.connected, if_true, driveTransfer, h.callback, h.arg,
    os_run]

/-- What one call of process_data_events makes of the result of its first part. -/
theorem step_data_outcome (s : Session) (w : World) :
    let a := dataStep ⟨s.client, w⟩
    let t := ClientEvent.step s (w, .data)
    (a.1 ≤ 0 ∧ a.1 ≠ -EAGAIN → t = (transferDone a.1 (cleanupDataResources a.2).2).2 ∧
      t.client.dataCallback = none ∧ s.Answers w (if a.1 < 0 then 520 else 226)) ∧
    (¬ (a.1 ≤ 0 ∧ a.1 ≠ -EAGAIN) → t = a.2 ∧ ∀ code, ¬ s.Answers w code) := by
  let a := dataStep ⟨s.client, w⟩
  have hsilent : Silent True ⟨s.client, w⟩ a.2 := dataStep_silent ⟨s.client, w⟩
  have hrun : ClientEvent.step s (w, .data) = (dataEvents ⟨s.client, w⟩).2 := rfl
  rw [dataEvents_run] at hrun
  constructor
  · intro hend
    let u := (cleanupDataResources a.2).2
    have hclient : u.client = a.2.client.released := cleanupDataResources_client a.2
    have hgrow : Grows a.2.world u.world := cleanupDataResources_grows a.2
    have hstory : u.story = w.hist s.client.conn := by
      rw [Session.story, hgrow.hist, hclient, hsilent.hist]
      exact congrArg w.hist hsilent.conn
    have he : ClientEvent.step s (w, .data) = (transferDone a.1 u).2 := by
      rw [hrun]
      simp only
      rw [if_pos hend]
    have hcb : u.client.dataCallback = none := by rw [hclient, Client.released]
    refine ⟨he, ?_⟩
    rw [Session.Answers, he, ← hstory]
    by_cases hneg : a.1 < 0
    · have hd : transferDone a.1 u = transferError u := by simp only [transferDone, if_pos hneg]
      rw [hd, if_pos hneg]
      exact ⟨hcb, _, _, writeReply_story _ _ u⟩
    · have hd : transferDone a.1 u =
          writeReply 226 "Closing data connection, transfer successful.".toList u := by
        simp only [transferDone, if_neg hneg]
      rw [hd, if_neg hneg]
      exact ⟨hcb, _, _, writeReply_story _ _ u⟩
  · intro hgo
    have he : ClientEvent.step s (w, .data) = a.2 := by
      rw [hrun]
      simp only
      rw [if_neg hgo]
    refine ⟨he, fun code hanswers => ?_⟩
    obtain ⟨text, q, hans⟩ := hanswers
    have hsame : (ClientEvent.step s (w, .data)).story = w.hist s.client.conn := by
      rw [he, Session.story, hsilent.hist]
      exact congrArg w.hist hsilent.conn
    rw [hsame] at hans
    simp at hans

theorem answers_226_iff (s : Session) (w : World) :
    s.Answers w 226 ↔ (dataStep ⟨s.client, w⟩).1 = 0 := by
  obtain ⟨hend, hgo⟩ := step_data_outcome s w
  let r := (dataStep ⟨s.client, w⟩).1
  constructor
  · intro hans
    by_cases h : r ≤ 0 ∧ r ≠ -EAGAIN
    · obtain ⟨-, -, hcode⟩ := hend h
      by_cases hneg : r < 0
      · rw [if_pos hneg] at hcode
        exact absurd (hcode.unique hans) (by decide)
      · omega
    · exact absurd hans ((hgo h).2 226)
  · intro hr
    obtain ⟨-, -, hcode⟩ := hend ⟨hr.le, by rw [hr]; decide⟩
    rwa [if_neg (by omega)] at hcode

theorem Session.Transferring.outcome {s : Session} {callback : Callback} {arg : Nat}
    (h : s.Transferring callback arg) (w : World) :
    let r := runCallback callback s.client.dataSocket arg w
    let t := ClientEvent.step s (w, .data)
    (r.1 ≤ 0 ∧ r.1 ≠ -EAGAIN → t.client.dataCallback = none ∧
      s.Answers w (if r.1 < 0 then 520 else 226)) ∧
    (¬ (r.1 ≤ 0 ∧ r.1 ≠ -EAGAIN) → t = ⟨s.client, r.2⟩ ∧ ∀ code, ¬ s.Answers w code) := by
  have hd := step_data_outcome s w
  rw [h.step w] at hd
  exact ⟨fun hend => (hd.1 hend).2, hd.2⟩

def Session.turns (s : Session) (ws : List World) : Session :=
  ws.foldl (fun t w => ClientEvent.step t (w, .data)) s

/-- Each call finds a transfer under way, and the world in which it is made is related like this to
what the call before left. -/
def Session.During (P : Session → World → Prop) : Session → List World → Prop
  | _, [] => True
  | s, w :: ws => s.client.dataCallback.isSome ∧ P s w ∧ (ClientEvent.step s (w, .data)).During P ws

def Session.collect (part : Session → World → Str) : Session → List World → Str
  | _, [] => []
  | s, w :: ws => part s w ++ (ClientEvent.step s (w, .data)).collect part ws

theorem Session.During.goes {P : Session → World → Prop} {s : Session} {pre : List World} {w : World}
    {post : List World} (h : s.During P (pre ++ w :: post)) : s.client.dataCallback.isSome := by
  cases pre with
  | nil => exact h.1
  | cons v pre => exact h.1

/-- Each of these calls finds the transfer under way. -/
def Session.Carries (s : Session) (callback : Callback) (arg : Nat) (ws : List World) : Prop :=
  ∀ pre w post, ws = pre ++ w :: post → (s.turns pre).Transferring callback arg

theorem Session.Carries.last {s : Session} {callback : Callback} {arg : Nat} {pre post : List World}
    {w : World} (h : s.Carries callback arg (pre ++ w :: post))
    (hend : (ClientEvent.step (s.turns pre) (w, .data)).client.dataCallback = none) : post = [] := by
  cases post with
  | nil => rfl
  | cons v post =>
    have hnext := (h (pre ++ [w]) v post (by simp)).callback
    simp only [Session.turns, List.foldl_append, List.foldl_cons, List.foldl_nil] at hnext hend
    simp [hend] at hnext

/-- The sends of a call have these results, and nothing goes out but what they took (the data socket
being another than the control socket, as `Reachable.split` has it). A call in which a send fails
ends the transfer with 520, and 226 is answered to no transfer of which bytes were lost. -/
structure Prompt (callback : Callback) (arg : Nat) (s : Session) (ws : List World) : Prop where
  sends : ∀ pre w post, ws = pre ++ w :: post →
    ∃ data, PutOut (attempts callback (s.turns pre).client.dataSocket arg w) data ∧
      ((s.turns pre).client.Split w → (s.turns pre).Puts w data)
  ended : ∀ pre w post, ws = pre ++ w :: post →
    ∀ x ∈ attempts callback (s.turns pre).client.dataSocket arg w, x.2 < 0 →
      (ClientEvent.step (s.turns pre) (w, .data)).client.dataCallback = none ∧
        (s.turns pre).Answers w 520
  whole : ∀ pre w, ws = pre ++ [w] → (s.turns pre).Answers w 226 →
    ∀ pre' w' post', ws = pre' ++ w' :: post' →
      let sends := attempts callback (s.turns pre').client.dataSocket arg w'
      (∀ x ∈ sends, x.2 = 0) ∧
        ((s.turns pre').client.Split w' → (s.turns pre').Puts w' (sends.flatMap Prod.fst))

/-- In each call of a download or listing nothing goes out but what the sends took. -/
theorem Session.Carries.puts {s : Session} {callback : Callback} (hcb : callback ≠ .recvToFile)
    {arg : Nat} {pre post : List World} {w : World} (h : s.Carries callback arg (pre ++ w :: post)) :
    ∃ data, PutOut (attempts callback (s.turns pre).client.dataSocket arg w) data ∧
      ((s.turns pre).client.Split w → (s.turns pre).Puts w data) := by
  obtain ⟨data, hput, hdata⟩ := attempts_putOut hcb (s.turns pre).client.dataSocket arg w
  refine ⟨data, hput, fun hsplit => Session.puts hsplit fun k hk => ?_⟩
  rw [(h pre w post rfl).step w]
  exact hdata k hk

/-- For every download or listing and every sequence of write results: failed sends end the transfer
exactly if none of them failed with -EAGAIN. -/
theorem failed_send_ends_transfer {callback : Callback} (hcb : callback ≠ .recvToFile) {arg : Nat}
    {s : Session} {ws : List World} (h : s.Carries callback arg ws) :
    Prompt callback arg s ws ↔
      ∀ pre w post, ws = pre ++ w :: post →
        ∀ x ∈ attempts callback (s.turns pre).client.dataSocket arg w, x.2 ≠ -EAGAIN := by
  constructor
  · intro hp pre w post he x hx hagain
    have hneg : x.2 < 0 := by
      rw [hagain]
      decide
    have hres := attempts_result hx hneg
    obtain ⟨-, hans⟩ := hp.ended pre w post he x hx hneg
    refine ((h pre w post he).outcome w).2 (fun hgo => ?_) |>.2 520 hans
    exact hgo.2 (hres.trans hagain)
  · intro hno
    have hended : ∀ pre w post, ws = pre ++ w :: post →
        ∀ x ∈ attempts callback (s.turns pre).client.dataSocket arg w, x.2 < 0 →
          (ClientEvent.step (s.turns pre) (w, .data)).client.dataCallback = none ∧
            (s.turns pre).Answers w 520 := by
      intro pre w post he x hx hneg
      have hres := attempts_result hx hneg
      obtain ⟨hnone, hans⟩ := ((h pre w post he).outcome w).1 <| by
        rw [hres]
        exact ⟨hneg.le, hno pre w post he x hx⟩
      simp only [hres, if_pos hneg] at hans
      exact ⟨hnone, hans⟩
    have hputs : ∀ pre w post, ws = pre ++ w :: post →
        ∃ data, PutOut (attempts callback (s.turns pre).client.dataSocket arg w) data ∧
          ((s.turns pre).client.Split w → (s.turns pre).Puts w data) :=
      fun pre w post he => Session.Carries.puts hcb (he ▸ h)
    refine ⟨hputs, hended, fun pre w hlast hans pre' w' post' he => ?_⟩
    obtain ⟨data, hput, hsent⟩ := hputs pre' w' post' he
    have hok : ∀ x ∈ attempts callback (s.turns pre').client.dataSocket arg w', ¬ x.2 < 0 := by
      intro x hx hneg
      obtain ⟨hnone, hans'⟩ := hended pre' w' post' he x hx hneg
      obtain rfl := (he ▸ h).last hnone
      obtain ⟨rfl, hw⟩ := List.append_inj' (hlast.symm.trans he) rfl
      obtain rfl : w = w' := by simpa using hw
      exact absurd (hans.unique hans') (by decide)
    obtain ⟨hzero, rfl⟩ := hput.all hok
    exact ⟨hzero, hsent⟩

theorem Session.Carries.cons {s : Session} {callback : Callback} {arg : Nat} {w : World}
    {ws : List World} (h : s.Transferring callback arg)
    (hs : (ClientEvent.step s (w, .data)).Carries callback arg ws) :
    s.Carries callback arg (w :: ws) := by
  intro pre v post he
  cases pre with
  | nil =>
    exact h
  | cons u pre =>
    obtain ⟨rfl, rfl⟩ : w = u ∧ ws = pre ++ v :: post := by simpa using he
    exact hs pre v post rfl

theorem Session.Carries.nil (s : Session) (callback : Callback) (arg : Nat) :
    s.Carries callback arg [] := by
  intro pre v post he
  simp at he

instance (s : Session) (callback : Callback) (arg : Nat) :
    Decidable (s.Transferring callback arg) :=
  decidable_of_iff (s.client.dataConnectionConnected = true ∧
    s.client.dataCallback = some callback ∧ s.client.dataConnectionCallbackArg = some arg)
    ⟨fun h => ⟨h.1, h.2.1, h.2.2⟩, fun h => ⟨h.1, h.2, h.3⟩⟩

/-- A listing whose data connection is made. -/
def listingRun : List Label :=
  connecting [{ data := "PASS x\r\nNLST\r\n".toList }, { code := 5 }, {}] ++
    [firstTurn, .env { net := [{}] }, firstTurn]

/-- The listing's first send fails like this. -/
def failingRun (code : Int) : List Label := listingRun ++ [.env { writes := [code] }]

theorem failed_send_ends_transfer_listing :
    ∃ c, (Server.after listingRun).heap 0 = some c ∧
      c.Split (Server.after (failingRun (-5))).world ∧
      Prompt .sendNlst 0 ⟨c, (Server.after listingRun).world⟩
        [(Server.after (failingRun (-5))).world] := by
  obtain ⟨c, hc, ht, hsplit, hfail⟩ := exists_client (s := Server.after listingRun) (p := 0)
    (fun c => Session.Transferring ⟨c, (Server.after listingRun).world⟩ .sendNlst 0 ∧
      c.Split (Server.after (failingRun (-5))).world ∧
      (attempts .sendNlst c.dataSocket 0 (Server.after (failingRun (-5))).world).map Prod.snd =
        [-5]) (by decide +kernel)
  refine ⟨c, hc, hsplit, (failed_send_ends_transfer (by decide) (.cons ht (.nil _ _ _))).mpr ?_⟩
  intro pre w post he
  cases pre with
  | nil =>
    obtain ⟨rfl, -⟩ := List.cons.inj he
    intro x hx hagain
    have hmem : x.2 ∈ (attempts .sendNlst c.dataSocket 0
        (Server.after (failingRun (-5))).world).map Prod.snd := List.mem_map_of_mem hx
    rw [hfail, hagain] at hmem
    exact absurd hmem (by decide)
  | cons u pre => simp at he

/-- A transfer answered 226 in its second call although a send of the first failed. -/
theorem Session.Transferring.lost {s : Session} {callback : Callback} {arg : Nat} {u v : World}
    {code r : Int} {text : Str} (h : s.Transferring callback arg)
    (h' : (ClientEvent.step s (u, .data)).Transferring callback arg)
    (hlost : (attempts callback s.client.dataSocket arg u).map Prod.snd = [code]) (hcode : code ≠ 0)
    (hans : (ClientEvent.step (ClientEvent.step s (u, .data)) (v, .data)).story =
      v.hist (ClientEvent.step s (u, .data)).client.conn ++ [.reply 226 text r]) :
    s.Carries callback arg [u, v] ∧ ¬ Prompt callback arg s [u, v] := by
  refine ⟨.cons h (.cons h' (.nil _ _ _)), fun hp => ?_⟩
  have hall := (hp.whole [u] v rfl ⟨text, r, hans⟩ [] u [v] rfl).1
  have hmem : code ∈ (attempts callback s.client.dataSocket arg u).map Prod.snd := by
    rw [hlost]
    simp
  obtain ⟨x, hx, he⟩ := List.mem_map.mp hmem
  exact hcode (he.symm.trans (hall x hx))

/-- A listing whose first line was lost is answered 226. -/
theorem failed_send_passes :
    ∃ c, (Server.after listingRun).heap 0 = some c ∧
      let s : Session := ⟨c, (Server.after listingRun).world⟩
      let ws := [(Server.after (failingRun (-EAGAIN))).world,
        (Server.after (failingRun (-EAGAIN) ++ [firstTurn])).world]
      s.Carries .sendNlst 0 ws ∧ ¬ Prompt .sendNlst 0 s ws := by
  obtain ⟨c, hc, ht, ht', hlost, hans⟩ := exists_client (s := Server.after listingRun) (p := 0)
    (fun c =>
      let s : Session := ⟨c, (Server.after listingRun).world⟩
      let t := ClientEvent.step s ((Server.after (failingRun (-EAGAIN))).world, .data)
      s.Transferring .sendNlst 0 ∧ t.Transferring .sendNlst 0 ∧
        (attempts .sendNlst c.dataSocket 0 (Server.after (failingRun (-EAGAIN))).world).map
          Prod.snd = [-EAGAIN] ∧
        (ClientEvent.step t ((Server.after (failingRun (-EAGAIN) ++ [firstTurn])).world,
          .data)).story = (Server.after (failingRun (-EAGAIN) ++ [firstTurn])).world.hist
            t.client.conn ++ [.reply 226
              "Closing data connection, transfer successful.".toList 0]) (by decide +kernel)
  exact ⟨c, hc, ht.lost ht' hlost (by decide) hans⟩

end Ftpii
