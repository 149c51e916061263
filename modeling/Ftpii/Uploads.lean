import Ftpii.FailedSends
set_option autoImplicit false

/-!
What an upload leaves on the disk: bytes pass through recv_to_file, the buffer of the
stream and the closing flush, over any number of calls.
-/

namespace Ftpii
open StateProgram Prog Scanf

/-! ## Bytes into a file -/

theorem writeAt_append (content : Str) (pos : Nat) (a b : Str) :
    writeAt (writeAt content pos a) (pos + a.length) b = writeAt content pos (a ++ b) := by
  by_cases ha : a = []
  · simp [writeAt, ha]
  by_cases hb : b = []
  · simp [writeAt, hb]
  have hpad : ((content ++ List.replicate (pos - content.length) '\x00').take pos).length = pos := by
    simp only [List.length_take, List.length_append, List.length_replicate]
    omega
  have hlen : pos + a.length ≤ (writeAt content pos a).length := by
    simp only [writeAt, if_neg ha, List.length_append, hpad]
    omega
  have hab : a ++ b ≠ [] := by simp [ha]
  rw [writeAt, if_neg hb, Nat.sub_eq_zero_of_le hlen, List.replicate_zero, List.append_nil]
  simp only [writeAt, if_neg ha, if_neg hab]
  rw [List.take_append_of_le_length (by simp only [List.length_append, hpad]; omega),
    List.take_of_length_le (by simp only [List.length_append, hpad]; omega)]
  rw [List.drop_append, List.drop_of_length_le (by simp only [List.length_append, hpad]; omega)]
  simp only [List.length_append, hpad, List.drop_drop, List.nil_append, List.append_assoc]
  congr 4
  omega

theorem writeAt_end (content data : Str) : writeAt content content.length data = content ++ data := by
  by_cases h : data = []
  · simp [writeAt, h]
  · simp [writeAt, h]

def Mode.written (mode : Mode) (content : Str) (pos : Nat) (data : Str) : Str :=
  if mode = .ab then content ++ data else writeAt content pos data

theorem Mode.written_append (mode : Mode) (content : Str) (pos : Nat) (a b : Str) :
    mode.written (mode.written content pos a) (pos + a.length) b =
      mode.written content pos (a ++ b) := by
  by_cases h : mode = .ab
  · simp [Mode.written, h]
  · simp only [Mode.written, if_neg h, writeAt_append]

theorem Mode.written_nil (mode : Mode) (content : Str) (pos : Nat) :
    mode.written content pos [] = content := by
  simp [Mode.written, writeAt]

/-- The stream is open on the file, to write these bytes at the offset. -/
def StreamAt (h : Nat) (path : Str) (mode : Mode) (pos : Nat) (pending : Str) (w : World) : Prop :=
  ∃ st, w.streams h = some st ∧ st.target = .file path mode ∧ st.pending = pending ∧
    (mode ≠ .ab → st.pos = pos)

/-- As `StreamAt`, and the file is there with this content. -/
structure OnFile (h : Nat) (path : Str) (mode : Mode) (content : Str) (pos : Nat) (pending : Str)
    (w : World) : Prop where
  stream : StreamAt h path mode pos pending w
  content : w.disk path = some content

/-- From content, offset and buffer as given, the stream was given these bytes. -/
def Took (h : Nat) (path : Str) (mode : Mode) (content : Str) (pos : Nat) (pending data : Str)
    (w : World) : Prop :=
  ∃ moved kept, pending ++ data = moved ++ kept ∧
    OnFile h path mode (mode.written content pos moved) (pos + moved.length) kept w

/-- Streams and files are as before. -/
def SameStreams (w w' : World) : Prop := w'.streams = w.streams ∧ w'.disk = w.disk

theorem sameStreams_sockets : UsesSockets SameStreams where
  refl _ := ⟨rfl, rfl⟩
  trans h h' := ⟨h'.1.trans h.1, h'.2.trans h.2⟩
  answers _ _ _ := ⟨rfl, rfl⟩
  shrink _ := ⟨rfl, rfl⟩
  flags _ _ _ _ _ _ := ⟨rfl, rfl⟩
  write _ _ _ _ _ _ _ _ := ⟨rfl, rfl⟩
  opened _ _ _ := ⟨rfl, rfl⟩
  bound _ _ _ _ _ := ⟨rfl, rfl⟩
  listening _ _ _ _ := ⟨rfl, rfl⟩
  closed _ _ := ⟨rfl, rfl⟩
  waits _ _ _ := ⟨rfl, rfl⟩
  connects _ _ _ := ⟨rfl, rfl⟩
  received _ _ _ _ _ := ⟨rfl, rfl⟩

section Streams

variable {h : Nat} {path : Str} {mode : Mode} {content : Str} {pos : Nat} {pending data : Str}
  {w w' : World}

theorem StreamAt.same (hw : StreamAt h path mode pos pending w) (hs : w'.streams h = w.streams h) :
    StreamAt h path mode pos pending w' := by
  obtain ⟨st, hst, hrest⟩ := hw
  exact ⟨st, hs.trans hst, hrest⟩

theorem OnFile.same (hw : OnFile h path mode content pos pending w) (hs : SameStreams w w') :
    OnFile h path mode content pos pending w' :=
  ⟨hw.stream.same (congrFun hs.1 h), (congrFun hs.2 path).trans hw.content⟩

theorem Took.same (ht : Took h path mode content pos pending data w) (hs : SameStreams w w') :
    Took h path mode content pos pending data w' := by
  obtain ⟨moved, kept, he, hw⟩ := ht
  exact ⟨moved, kept, he, hw.same hs⟩

theorem OnFile.flush (hw : OnFile h path mode content pos pending w) (n : Nat) :
    OnFile h path mode (mode.written content pos (pending.take n)) (pos + (pending.take n).length)
      (pending.drop n) (w.flush h n) := by
  obtain ⟨⟨st, hst, ht, hp, hpos⟩, hc⟩ := hw
  let moved := pending.take n
  let st' : Stream := { st with pos := (if mode = .ab then content.length else st.pos) + moved.length,
                                pending := pending.drop n }
  have hrun : w.flush h n =
      (w.setDisk path (some (mode.written content pos moved))).setStream h st' := by
    simp only [World.flush, hst, ht, hc, hp, Mode.written, st', moved]
    by_cases hm : mode = .ab
    · simp only [if_pos hm, writeAt_end]
    · simp only [if_neg hm, hpos hm]
  rw [hrun]
  refine ⟨⟨st', by simp [World.setStream], ht, rfl, fun hm => ?_⟩,
    by simp [World.setStream, World.setDisk, moved]⟩
  simp only [st', moved, if_neg hm, hpos hm]

theorem OnFile.took (hw : OnFile h path mode content pos pending w) :
    Took h path mode content pos pending [] w :=
  ⟨[], pending, by simp, by simpa [Mode.written_nil] using hw⟩

theorem OnFile.give (hw : OnFile h path mode content pos pending w) (data : Str) (n : Nat) :
    Took h path mode content pos pending data
      (match w.streams h with
      | none => w
      | some st => (w.setStream h { st with pending := st.pending ++ data }).flush h n) := by
  obtain ⟨⟨st, hst, ht, hp, hpos⟩, hc⟩ := hw
  let st' : Stream := { st with pending := st.pending ++ data }
  have hv : OnFile h path mode content pos (pending ++ data) (w.setStream h st') :=
    ⟨⟨st', by simp [World.setStream], ht, by simp [st', hp], hpos⟩, hc⟩
  rw [hst]
  exact ⟨_, _, (List.take_append_drop n (pending ++ data)).symm, hv.flush n⟩

theorem Took.give (ht : Took h path mode content pos pending data w) {more : Str}
    (hnext : ∀ c p a, OnFile h path mode c p a w → Took h path mode c p a more w') :
    Took h path mode content pos pending (data ++ more) w' := by
  obtain ⟨moved, kept, he, hw⟩ := ht
  obtain ⟨moved', kept', he', hw'⟩ := hnext _ _ _ hw
  rw [Mode.written_append, Nat.add_assoc, ← List.length_append] at hw'
  refine ⟨moved ++ moved', kept', ?_, hw'⟩
  rw [← List.append_assoc, he, List.append_assoc, he', List.append_assoc]

end Streams

/-! ## stdio -/

def World.fileOutcome (w : World) : FileAnswer := w.answers.files.headD {}

def World.drawFile (w : World) : World :=
  { w with answers := { w.answers with files := w.answers.files.tail } }

theorem fileAnswer_run (w : World) : fileAnswer w = (w.fileOutcome, w.drawFile) := by
  obtain ⟨answers, _⟩ := w
  obtain ⟨_, _, _, files, _⟩ := answers
  cases files <;> rfl

theorem drawFile_same (w : World) : SameStreams w w.drawFile := ⟨rfl, rfl⟩

/-- What fwrite accepts of a buffer. -/
def FileAnswer.accepted (a : FileAnswer) (buf : Str) : Str :=
  if a.code < 0 then buf.take (min a.count (buf.length - 1)) else buf

theorem fwrite_run (h : Nat) (buf : Str) (w : World) :
    fwrite h buf w =
      ((w.fileOutcome.accepted buf).length,
        match w.drawFile.streams h with
        | none => w.drawFile
        | some st =>
          (w.drawFile.setStream h { st with pending := st.pending ++ w.fileOutcome.accepted buf }).flush
            h w.fileOutcome.flushed) := by
  simp only [fwrite, bind_run, fileAnswer_run, modify_run, pure_run]
  rfl

theorem fwrite_took {h : Nat} {path : Str} {mode : Mode} {content : Str} {pos : Nat} {pending : Str}
    {w : World} (hw : OnFile h path mode content pos pending w) (buf : Str) :
    Took h path mode content pos pending (w.fileOutcome.accepted buf) (fwrite h buf w).2 := by
  rw [fwrite_run]
  exact (hw.same (drawFile_same w)).give _ _

theorem accepted_short {a : FileAnswer} {buf : Str} (hb : buf ≠ []) :
    (a.accepted buf).length < buf.length ↔ a.code < 0 := by
  have hpos := List.length_pos_of_ne_nil hb
  unfold FileAnswer.accepted
  split
  · rename_i hneg
    simp only [List.length_take, hneg, iff_true]
    omega
  · rename_i hok
    simp [hok]

theorem fclose_run (h : Nat) (w : World) :
    fclose h w =
      (if w.fileOutcome.code < 0 then -1 else 0,
        match w.drawFile.streams h with
        | none => w.drawFile
        | some st => (w.drawFile.flush h (if w.fileOutcome.code < 0 then w.fileOutcome.flushed
            else st.pending.length)).closeStream h) := by
  refine (bind_run _ _ w).trans ?_
  rw [fileAnswer_run]
  rfl

/-- A close that reports no error puts what was buffered into the file. -/
theorem fclose_content {h : Nat} {path : Str} {mode : Mode} {content : Str} {pos : Nat}
    {pending : Str} {w : World} (hw : OnFile h path mode content pos pending w)
    (hok : ¬ w.fileOutcome.code < 0) :
    (fclose h w).2.disk path = some (mode.written content pos pending) := by
  have hv := hw.same (drawFile_same w)
  obtain ⟨st, hst, -, hp, -⟩ := hv.stream
  have hflush := hv.flush st.pending.length
  rw [hp, List.take_length] at hflush
  obtain ⟨st', hst', -⟩ := hflush.stream
  rw [fclose_run]
  simp only [if_neg hok, hst, World.closeStream, hp, hst']
  exact hflush.content

/-! ## The receive loop -/

def World.netOutcome (w : World) : NetAnswer := w.answers.net.headD { code := -EAGAIN }

/-- What a read for at most len bytes gets. -/
def NetAnswer.got (a : NetAnswer) (len : Nat) : Str := if a.code < 0 then [] else a.data.take len

def World.receive (w : World) (fd : Int) (k : Sock) (data : Str) : World :=
  { w with
    answers := { w.answers with net := w.answers.net.tail }
    log := w.log ++ [.waits fd k.blocking]
    received := Function.update w.received k.id (w.received k.id ++ data) }

theorem netRead_receive {fd : Int} {k : Sock} {w : World} (hk : w.socks fd = some k) (len : Nat) :
    netRead fd len w =
      (if w.netOutcome.code < 0 then .error w.netOutcome.code else .ok (k.id, w.netOutcome.got len),
        w.receive fd k (w.netOutcome.got len)) := by
  have hpop : popNet (w.record (.waits fd k.blocking)) =
      (w.netOutcome, { w.record (.waits fd k.blocking) with
        answers := { w.answers with net := w.answers.net.tail } }) := by
    obtain ⟨answers, _⟩ := w
    obtain ⟨net, _⟩ := answers
    cases net <;> rfl
  rw [netRead_run, hk]
  simp only [hpop]
  by_cases hneg : w.netOutcome.code < 0
  · simp [hneg, NetAnswer.got, World.receive, World.record]
  · simp [hneg, NetAnswer.got, World.receive, World.record]

theorem recvStep_run {fd : Int} {k : Sock} {w : World} (hk : w.socks fd = some k) (f : Nat) :
    recvStep fd f w =
      let a := w.netOutcome
      let got := a.got w.netBufferSize
      let v := w.receive fd k got
      if a.code < 0 then
        if a.code = -EINVAL ∧ w.netBufferSize = MAX_NET_BUFFER_SIZE then
          (.inl (), (shrinkBuffer v).2)
        else (.inr a.code, v)
      else if got = [] then (.inr 0, v)
      else (if v.fileOutcome.code < 0 then .inr (-1) else .inl (), (fwrite f got v).2) := by
  simp only [recvStep, bind_run, gets_run, netRead_receive hk]
  by_cases hneg : w.netOutcome.code < 0
  · simp only [if_pos hneg]
    split
    · rename_i hs
      exact congrFun (if_pos hs) _
    · rename_i hs
      exact congrFun (if_neg hs) _
  · simp only [if_neg hneg]
    cases hgot : w.netOutcome.got w.netBufferSize with
    | nil => simp
    | cons c cs =>
      have hne : c :: cs ≠ [] := by simp
      have hshort := accepted_short (a := (w.receive fd k (c :: cs)).fileOutcome) hne
      simp only [if_neg hne, bind_run, pure_run, fwrite_run]
      by_cases hf : (w.receive fd k (c :: cs)).fileOutcome.code < 0
      · simp only [if_pos (hshort.mpr hf), if_pos hf]
      · simp only [if_neg fun h => hf (hshort.mp h), if_neg hf]

theorem fwrite_frame (h : Nat) (buf : Str) (w : World) :
    ∃ disk streams, (fwrite h buf w).2 = { w.drawFile with disk := disk, streams := streams } := by
  have hflush : ∀ (v : World) (n : Nat), ∃ disk streams,
      v.flush h n = { v with disk := disk, streams := streams } := by
    intro v n
    unfold World.flush
    split
    · exact ⟨v.disk, v.streams, rfl⟩
    · split
      · split
        · exact ⟨v.disk, v.streams, rfl⟩
        · exact ⟨_, _, rfl⟩
      · exact ⟨v.disk, v.streams, rfl⟩
  rw [fwrite_run]
  cases w.drawFile.streams h with
  | none => exact ⟨w.drawFile.disk, w.drawFile.streams, rfl⟩
  | some st =>
    obtain ⟨disk, streams, he⟩ := hflush (w.drawFile.setStream h
      { st with pending := st.pending ++ w.fileOutcome.accepted buf }) w.fileOutcome.flushed
    exact ⟨disk, streams, he⟩

/-- The outcomes of file calls that are left when the stream ends, if it does before any error. -/
def endOfStream (size : Nat) : List NetAnswer → List FileAnswer → Option (List FileAnswer)
  | [], _ => none
  | a :: as, files =>
    if a.code < 0 then
      if a.code = -EINVAL ∧ size = MAX_NET_BUFFER_SIZE then endOfStream MIN_NET_BUFFER_SIZE as files
      else none
    else if a.data.take size = [] then some files
    else if (files.headD {}).code < 0 then none
    else endOfStream size as files.tail

/-- What a round leaves to be read decides how the loop ends. -/
def World.ending (w : World) : Option (List FileAnswer) :=
  endOfStream w.netBufferSize w.answers.net w.answers.files

theorem recvStep_end {fd : Int} {k : Sock} {w : World} (hk : w.socks fd = some k) (f : Nat) :
    let r := recvStep fd f w
    (∀ u, r.1 = .inl u → w.ending = r.2.ending ∧ r.2.socks fd = some k ∧
      r.2.answers.net.length < w.answers.net.length) ∧
    ∀ e, r.1 = .inr e → w.ending = if e = 0 then some r.2.answers.files else none := by
  have hrun := recvStep_run hk f
  cases hnet : w.answers.net with
  | nil =>
    have hout : w.netOutcome = { code := -EAGAIN } := by simp [World.netOutcome, hnet]
    have he : (recvStep fd f w).1 = .inr (-EAGAIN) := by
      rw [hrun, hout]
      simp [EAGAIN, EINVAL]
    refine ⟨fun u h => by simp [he] at h, fun e h => ?_⟩
    obtain rfl : -EAGAIN = e := by simpa [he] using h
    simp [World.ending, hnet, endOfStream, EAGAIN]
  | cons a as =>
    have hout : w.netOutcome = a := by simp [World.netOutcome, hnet]
    let got := a.got w.netBufferSize
    let v := w.receive fd k got
    have has : v.answers.net = as := by simp [v, World.receive, hnet]
    simp only [hout] at hrun
    simp only [World.ending, hnet, endOfStream]
    by_cases hneg : a.code < 0
    · by_cases hshrink : a.code = -EINVAL ∧ w.netBufferSize = MAX_NET_BUFFER_SIZE
      · rw [if_pos hneg, if_pos hshrink] at hrun
        rw [if_pos hneg, if_pos hshrink, hrun]
        refine ⟨fun u _ => ⟨?_, hk, ?_⟩, fun e h => by simp at h⟩
        · rw [← has]
          rfl
        · rw [List.length_cons, ← has]
          exact Nat.lt_succ_self _
      · rw [if_pos hneg, if_neg hshrink] at hrun
        rw [if_pos hneg, if_neg hshrink, hrun]
        refine ⟨fun u h => by simp at h, fun e h => ?_⟩
        obtain rfl : a.code = e := by simpa using h
        rw [if_neg (by omega)]
    · have hgot : a.data.take w.netBufferSize = got := by simp [got, NetAnswer.got, hneg]
      rw [if_neg hneg] at hrun
      rw [if_neg hneg, hgot]
      by_cases hend : got = []
      · rw [if_pos hend] at hrun
        rw [if_pos hend, hrun]
        refine ⟨fun u h => by simp at h, fun e h => ?_⟩
        obtain rfl : 0 = e := by simpa using h
        rfl
      · have hfile : v.fileOutcome = w.answers.files.headD {} := rfl
        obtain ⟨disk, streams, hw⟩ := fwrite_frame f got v
        rw [if_neg hend, hfile, hw] at hrun
        rw [if_neg hend, hrun]
        by_cases hf : (w.answers.files.headD {}).code < 0
        · rw [if_pos hf, if_pos hf]
          refine ⟨fun u h => by simp at h, fun e h => ?_⟩
          obtain rfl : -1 = e := by simpa using h
          rfl
        · rw [if_neg hf, if_neg hf]
          refine ⟨fun u _ => ⟨?_, hk, ?_⟩, fun e h => by simp at h⟩
          · rw [← has]
            rfl
          · rw [List.length_cons, ← has]
            exact Nat.lt_succ_self _

/-- recv_to_file returns 0 exactly if the stream ends before any error. -/
theorem recvToFile_end {fd : Int} {k : Sock} {w : World} (hk : w.socks fd = some k) (f : Nat) :
    w.ending =
      if (recvToFile fd f w).1 = 0 then some (recvToFile fd f w).2.answers.files else none :=
  iterate_rule_of_lt (b := ()) (fun _ v => v.answers.net.length)
    (fun _ v => v.socks fd = some k ∧ w.ending = v.ending)
    (fun r v => w.ending = if r = 0 then some v.answers.files else none)
    (fun _ v u h hstep => by
      obtain ⟨he, hk', hlt⟩ := (recvStep_end h.1 f).1 u hstep
      exact ⟨⟨hk', h.2.trans he⟩, hlt⟩)
    (fun _ v e h hstep => h.2.trans ((recvStep_end h.1 f).2 e hstep))
    (w.answers.net.length + 1) (Nat.lt_succ_self _) ⟨hk, rfl⟩

theorem recvStep_took {fd : Int} {k : Sock} {v : World} (hk : v.socks fd = some k) {f : Nat}
    {path : Str} {mode : Mode} {content : Str} {pos : Nat} {pending data : Str}
    (ht : Took f path mode content pos pending data v) :
    let r := recvStep fd f v
    r.2.socks fd = some k ∧ ∃ got, r.2.received k.id = v.received k.id ++ got ∧
      (r.1 ≠ .inr (-1) → Took f path mode content pos pending (data ++ got) r.2) := by
  have hrun := recvStep_run hk f
  simp only at hrun ⊢
  let got := v.netOutcome.got v.netBufferSize
  let u := v.receive fd k got
  have hgot : u.received k.id = v.received k.id ++ got := by simp [u, World.receive]
  have hu : Took f path mode content pos pending data u := ht.same ⟨rfl, rfl⟩
  have hnone (h : got = []) : Took f path mode content pos pending (data ++ got) u := by
    rw [h, List.append_nil]
    exact hu
  split at hrun
  · rename_i hneg
    have hnil : got = [] := if_pos hneg
    split at hrun
    · rw [hrun]
      exact ⟨hk, got, hgot, fun _ => (hnone hnil).same ⟨rfl, rfl⟩⟩
    · rw [hrun]
      exact ⟨hk, got, hgot, fun _ => hnone hnil⟩
  · split at hrun
    · rename_i hnil
      rw [hrun]
      exact ⟨hk, got, hgot, fun _ => hnone hnil⟩
    · obtain ⟨disk, streams, hframe⟩ := fwrite_frame f got u
      rw [hrun]
      refine ⟨?_, got, ?_, fun hne => ?_⟩
      · change (fwrite f got u).2.socks fd = some k
        rw [hframe]
        exact hk
      · change (fwrite f got u).2.received k.id = _
        rw [hframe]
        exact hgot
      · have hok : ¬ u.fileOutcome.code < 0 := fun hf => hne (if_pos hf)
        have hall : u.fileOutcome.accepted got = got := if_neg hok
        exact hu.give fun c p a ha => hall ▸ fwrite_took ha got

/-- What recv_to_file receives it gives to the stream, unless a write falls short. -/
theorem recvToFile_took {fd : Int} {k : Sock} {w : World} (hk : w.socks fd = some k) {f : Nat}
    {path : Str} {mode : Mode} {content : Str} {pos : Nat} {pending : Str}
    (hw : OnFile f path mode content pos pending w) :
    ∃ data, (recvToFile fd f w).2.received k.id = w.received k.id ++ data ∧
      ((recvToFile fd f w).1 ≠ -1 →
        Took f path mode content pos pending data (recvToFile fd f w).2) := by
  refine @iterate_rule World Unit Int (fun _ => recvStep fd f) (fun _ => -EAGAIN)
    (fun _ v => v.socks fd = some k ∧ ∃ data, v.received k.id = w.received k.id ++ data ∧
      Took f path mode content pos pending data v)
    (fun r v => ∃ data, v.received k.id = w.received k.id ++ data ∧
      (r ≠ -1 → Took f path mode content pos pending data v)) ?_ ?_ ?_ (w.answers.net.length + 1)
    () w ⟨hk, [], (List.append_nil _).symm, hw.took⟩
  · rintro - v u ⟨hk, data, hrec, ht⟩ hstep
    obtain ⟨hk', got, hgot, htook⟩ := recvStep_took hk ht
    refine ⟨hk', data ++ got, ?_, htook (by simp [hstep])⟩
    rw [hgot, hrec, List.append_assoc]
  · rintro - v r ⟨hk, data, hrec, ht⟩ hstep
    obtain ⟨-, got, hgot, htook⟩ := recvStep_took hk ht
    refine ⟨data ++ got, ?_, fun hr => htook (by simpa [hstep] using hr)⟩
    rw [hgot, hrec, List.append_assoc]
  · rintro - v ⟨-, data, hrec, ht⟩
    exact ⟨data, hrec, fun _ => ht⟩

theorem recvToFile_closed {fd : Int} {w : World} (hk : w.socks fd = none) (f : Nat) :
    recvToFile fd f w = (-EBADF, w) := by
  have hstep : recvStep fd f w = (.inr (-EBADF), w) := by
    simp [recvStep, netRead_run, hk, EBADF, EINVAL]
  have hloop := @iterate_inr World Unit Int (fun _ => recvStep fd f) (fun _ => -EAGAIN)
    w.answers.net.length () (-EBADF) w (congrArg Prod.fst hstep)
  rw [hstep] at hloop
  exact hloop

/-! ## The end of a transfer -/

theorem setBlocking_files (fd : Int) (blocking : Bool) (w : World) :
    SameStreams w (setBlocking fd blocking w).2 ∧
      (setBlocking fd blocking w).2.answers.files = w.answers.files := by
  obtain ⟨cs, h | ⟨k, f, -, h⟩⟩ := setBlocking_toggles fd blocking w
  · rw [h]
    exact ⟨⟨rfl, rfl⟩, rfl⟩
  · rw [h]
    exact ⟨⟨rfl, rfl⟩, rfl⟩

theorem closeDataSocket_files (s : Session) :
    SameStreams s.world (closeDataSocket s).2.world ∧
      (closeDataSocket s).2.world.answers.files = s.world.answers.files := by
  simp +instances only [closeDataSocket, bind_run, client_run, ite_run, os_run, pure_run]
  split
  · exact setBlocking_files s.client.dataSocket true s.world
  · exact ⟨⟨rfl, rfl⟩, rfl⟩

/-- The client's transfer is an upload into this stream. -/
abbrev Session.Uploads (s : Session) (f : Nat) : Prop := s.Holds .recvToFile f .fclose

theorem Session.Uploads.release {s : Session} {f : Nat} (h : s.Uploads f) :
    (cleanupDataResources s).2.world = (fclose f (closeDataSocket s).2.world).2 := by
  have hc := closeDataSocket_client s
  simp [cleanupDataResources, runClientCleanup, hc, h.arg, h.cleanup, runCleanup]

theorem transferDone_streams (result : Int) (s : Session) :
    SameStreams s.world (transferDone result s).2.world := by
  have h : SameFiles s (transferDone result s).2 := by
    unfold transferDone
    rw [ite_run]
    split
    · exact writeReply_sameFiles _ _ s
    · exact writeReply_sameFiles _ _ s
  exact ⟨h.streams, h.disk⟩

/-- The stream ends in this call before any error, and the close that follows reports one. -/
def Session.FlushFails (s : Session) (w : World) : Prop :=
  s.client.dataConnectionConnected = true ∧ (w.socks s.client.dataSocket).isSome ∧
    ∃ files, w.ending = some files ∧ (files.headD {}).code < 0

/-- The outcome of the fclose that would follow this call. -/
def Session.closing (s : Session) (w : World) : FileAnswer :=
  (closeDataSocket (dataStep ⟨s.client, w⟩).2).2.world.fileOutcome

theorem Session.Uploads.connected {s : Session} {f : Nat} (h : s.Uploads f)
    (hc : s.client.dataConnectionConnected = true) (w : World) :
    dataStep ⟨s.client, w⟩ = ((recvToFile s.client.dataSocket f w).1,
      ⟨s.client, (recvToFile s.client.dataSocket f w).2⟩) :=
  Session.Transferring.step ⟨hc, h.callback, h.arg⟩ w

theorem gained_awaits {s : Session} (hc : s.client.dataConnectionConnected = false) (w : World) :
    s.gained w = [] := by
  rw [gained_eq, (dataStep_awaits (s := ⟨s.client, w⟩) hc).2.1]
  cases w.socks s.client.dataSocket <;> simp

theorem Session.Uploads.took {s : Session} {f : Nat} (h : s.Uploads f)
    (hc : s.client.dataConnectionConnected = true) {path : Str} {mode : Mode} {content : Str}
    {pos : Nat} {pending : Str} {w : World} (hw : OnFile f path mode content pos pending w)
    (hr : (recvToFile s.client.dataSocket f w).1 ≠ -1) :
    Took f path mode content pos pending (s.gained w) (recvToFile s.client.dataSocket f w).2 := by
  rw [gained_eq, h.connected hc w]
  cases hk : w.socks s.client.dataSocket with
  | none =>
    rw [recvToFile_closed hk]
    exact hw.took
  | some k =>
    obtain ⟨data, hrec, ht⟩ := recvToFile_took hk hw
    simpa [hrec] using ht hr

theorem Session.Uploads.flushFails_iff {s : Session} {f : Nat} (h : s.Uploads f) (w : World) :
    s.FlushFails w ↔ s.Answers w 226 ∧ (s.closing w).code < 0 := by
  rw [answers_226_iff]
  cases hc : s.client.dataConnectionConnected with
  | false =>
    have hr : (dataStep ⟨s.client, w⟩).1 ≠ 0 := ((h.within w).waits hc).1
    simp [Session.FlushFails, hc, hr]
  | true =>
    have hfiles := (closeDataSocket_files (dataStep ⟨s.client, w⟩).2).2
    rw [Session.closing, World.fileOutcome, hfiles, h.connected hc w]
    cases hk : w.socks s.client.dataSocket with
    | none => simp [Session.FlushFails, hk, recvToFile_closed hk, EBADF]
    | some k =>
      rw [Session.FlushFails, recvToFile_end hk f, hc, hk]
      by_cases hr : (recvToFile s.client.dataSocket f w).1 = 0
      · simp [hr]
      · simp [hr]

/-- One call of an upload: it goes on with what it received, or it ends with an answer, and in the
file if that is 226 and the close reports no error. -/
theorem Session.Uploads.call {s : Session} {f : Nat} (h : s.Uploads f) {path : Str} {mode : Mode}
    {content : Str} {pos : Nat} {pending : Str} {w : World}
    (hw : OnFile f path mode content pos pending w) :
    let t := ClientEvent.step s (w, .data)
    (t.client.dataCallback.isSome → t.Uploads f ∧ ¬ s.Answers w 226 ∧
      Took f path mode content pos pending (s.gained w) t.world) ∧
    (t.client.dataCallback = none → (s.Answers w 226 ∨ s.Answers w 520) ∧
      (s.Answers w 226 → ¬ (s.closing w).code < 0 →
        t.world.disk path = some (mode.written content pos (pending ++ s.gained w)))) := by
  obtain ⟨hend, hgo⟩ := step_data_outcome s w
  let a := dataStep ⟨s.client, w⟩
  have hup : a.2.Uploads f := by
    cases hc : s.client.dataConnectionConnected with
    | false => exact ((h.within w).waits hc).2
    | true =>
      simp only [a, h.connected hc w]
      exact h.within _
  have htook (hr : a.1 ≠ -1) : Took f path mode content pos pending (s.gained w) a.2.world := by
    cases hc : s.client.dataConnectionConnected with
    | false =>
      have hs : SameStreams w a.2.world := dataStep_waits (s := ⟨s.client, w⟩) sameStreams_sockets hc
      rw [gained_awaits hc]
      exact hw.took.same hs
    | true =>
      simp only [a, h.connected hc w] at hr ⊢
      exact h.took hc hw hr
  by_cases hover : a.1 ≤ 0 ∧ a.1 ≠ -EAGAIN
  · obtain ⟨ht, hnone, hans⟩ := hend hover
    refine ⟨fun hs => by simp [hnone] at hs, fun _ => ⟨?_, fun h226 hok => ?_⟩⟩
    · split at hans
      · exact .inr hans
      · exact .inl hans
    · have hr : a.1 = 0 := (answers_226_iff s w).mp h226
      obtain ⟨moved, kept, he, hv⟩ := htook (by omega)
      have hclose := hv.same (closeDataSocket_files a.2).1
      have hfile := fclose_content hclose hok
      rw [Mode.written_append, ← he] at hfile
      rw [ht, (transferDone_streams _ _).2, hup.release]
      exact hfile
  · obtain ⟨ht, hno⟩ := hgo hover
    have hsome : (ClientEvent.step s (w, .data)).client.dataCallback = some .recvToFile := by
      rw [ht]
      exact hup.callback
    refine ⟨fun _ => ⟨ht ▸ hup, hno 226, ?_⟩, fun hn => by simp [hsome] at hn⟩
    rw [ht]
    refine htook fun hr => hover ?_
    rw [hr]
    decide

/-! ## Uploads over many calls -/

/-- What lies between two calls leaves the stream alone and does not remove the file. -/
def Session.Carried (f : Nat) (path : Str) : Session → List World → Prop :=
  Session.During fun s w => w.streams f = s.world.streams f ∧ (w.disk path).isSome

def Session.uploaded : Session → List World → Str := Session.collect Session.gained

/-- These calls write the bytes to the file, each its share behind the share of the call before. -/
inductive Stores (path : Str) (mode : Mode) : Session → List World → Nat → Str → Prop where
  | nil (s : Session) (pos : Nat) : Stores path mode s [] pos []
  | cons {s : Session} {w : World} {ws : List World} {pos : Nat} {content moved rest : Str} :
      w.disk path = some content →
      (ClientEvent.step s (w, .data)).world.disk path = some (mode.written content pos moved) →
      Stores path mode (ClientEvent.step s (w, .data)) ws (pos + moved.length) rest →
      Stores path mode s (w :: ws) pos (moved ++ rest)

/-- The transfer ends with an answer, and with 226 only if every byte that came in is in the file, in
order and once, and the closing flush succeeded. -/
structure Honest (f : Nat) (path : Str) (mode : Mode) (pos : Nat) (s : Session) (ws : List World) :
    Prop where
  stored : ∀ pre w, ws = pre ++ [w] → (s.turns pre).Answers w 226 →
    Stores path mode s ws pos (s.uploaded ws) ∧ ¬ ((s.turns pre).closing w).code < 0
  answered : ∀ pre w post, ws = pre ++ w :: post →
    (ClientEvent.step (s.turns pre) (w, .data)).client.dataCallback = none →
      (s.turns pre).Answers w 226 ∨ (s.turns pre).Answers w 520

theorem Session.Carried.uploads {f : Nat} {path : Str} {mode : Mode} {pre : List World} {w : World}
    {post : List World} {s : Session} {pos : Nat} {pending : Str} (h : s.Uploads f)
    (hst : StreamAt f path mode pos pending s.world) (hc : s.Carried f path (pre ++ w :: post)) :
    (s.turns pre).Uploads f ∧
      ∃ content pos pending, OnFile f path mode content pos pending w := by
  induction pre generalizing s pos pending with
  | nil =>
    obtain ⟨-, ⟨hsame, hpresent⟩, -⟩ := hc
    obtain ⟨content, hcontent⟩ := Option.isSome_iff_exists.mp hpresent
    exact ⟨h, content, pos, pending, hst.same hsame, hcontent⟩
  | cons u pre ih =>
    obtain ⟨-, ⟨hsame, hpresent⟩, hrest⟩ := hc
    obtain ⟨content, hcontent⟩ := Option.isSome_iff_exists.mp hpresent
    have hgo := (h.call ⟨hst.same hsame, hcontent⟩).1
    obtain ⟨hup, -, moved, kept, -, hw⟩ := hgo hrest.goes
    exact ih hup hw.stream hrest

theorem Session.Carried.stores {f : Nat} {path : Str} {mode : Mode} {pre : List World} {w : World}
    {s : Session} {pos : Nat} {pending : Str} (h : s.Uploads f)
    (hst : StreamAt f path mode pos pending s.world) (hc : s.Carried f path (pre ++ [w]))
    (hans : (s.turns pre).Answers w 226) (hok : ¬ ((s.turns pre).closing w).code < 0) :
    Stores path mode s (pre ++ [w]) pos (pending ++ s.uploaded (pre ++ [w])) := by
  induction pre generalizing s pos pending with
  | nil =>
    obtain ⟨-, ⟨hsame, hpresent⟩, -⟩ := hc
    obtain ⟨content, hcontent⟩ := Option.isSome_iff_exists.mp hpresent
    have hw : OnFile f path mode content pos pending w := ⟨hst.same hsame, hcontent⟩
    obtain ⟨hgo, hend⟩ := h.call hw
    cases hcb : (ClientEvent.step s (w, .data)).client.dataCallback with
    | some cb => exact absurd hans (hgo (by simp [hcb])).2.1
    | none =>
      have hfile := (hend hcb).2 hans hok
      have hall := Stores.cons hcontent hfile (.nil _ _)
      simpa [Session.uploaded, Session.collect] using hall
  | cons u pre ih =>
    obtain ⟨-, ⟨hsame, hpresent⟩, hrest⟩ := hc
    obtain ⟨content, hcontent⟩ := Option.isSome_iff_exists.mp hpresent
    obtain ⟨hup, -, moved, kept, he, hw⟩ := (h.call ⟨hst.same hsame, hcontent⟩).1 hrest.goes
    have htail := ih hup hw.stream hrest hans hok
    have hall := Stores.cons hcontent hw.content htail
    rw [← List.append_assoc, ← he, List.append_assoc] at hall
    exact hall

/-- For every upload: the answer is honest exactly if no close fails after the end of the stream. -/
theorem honest_iff {f : Nat} {path : Str} {mode : Mode} {pos : Nat} {s : Session} {ws : List World}
    (h : s.Uploads f) (hst : StreamAt f path mode pos [] s.world) (hc : s.Carried f path ws) :
    Honest f path mode pos s ws ↔ ∀ pre w, ws = pre ++ [w] → ¬ (s.turns pre).FlushFails w := by
  constructor
  · rintro hh pre w rfl hfail
    obtain ⟨hup, -⟩ := hc.uploads h hst
    obtain ⟨hans, hcode⟩ := (hup.flushFails_iff w).mp hfail
    exact (hh.stored pre w rfl hans).2 hcode
  · intro hno
    refine ⟨?_, ?_⟩
    · rintro pre w rfl hans
      obtain ⟨hup, -⟩ := hc.uploads h hst
      have hok : ¬ ((s.turns pre).closing w).code < 0 := fun hcode =>
        hno pre w rfl ((hup.flushFails_iff w).mpr ⟨hans, hcode⟩)
      have hall := hc.stores h hst hans hok
      exact ⟨hall, hok⟩
    · rintro pre w post rfl hnone
      obtain ⟨hup, content, pos, pending, hw⟩ := hc.uploads h hst
      exact ((hup.call hw).2 hnone).1

/-! ## STOR and APPE -/

/-- An upload waits for its data connection: its stream is new and will write at the offset. -/
structure Session.Begins (s : Session) (f : Nat) (path : Str) (mode : Mode) (pos : Nat) : Prop where
  uploads : s.Uploads f
  stream : StreamAt f path mode pos [] s.world

theorem ftpStor_begins {path : Str} {s : Session} (hcb : s.client.dataCallback = none)
    (hgo : (ftpStor path s).2.client.dataCallback ≠ none) :
    ∃ real, (toRealPath s.client.cwd path s.world).1 = some real ∧
      (ftpStor path s).2.Begins s.world.nextStream real .wb s.client.restartMarker.toNat ∧
      (ftpStor path s).2.world.disk real = some [] := by
  rw [ftpStor_run] at hgo ⊢
  rcases vrtFopen_cases s.client.cwd path .wb s.world with ⟨hn, -⟩ | ⟨real, w', hreal, hl, -, hrun⟩
  · rw [hn] at hgo
    exact absurd hcb hgo
  · rw [hrun] at hgo ⊢
    let f := s.world.nextStream
    let v := w'.opened (.file real .wb) (Mode.openDisk .wb s.world.disk real)
    let st : Stream := { target := .file real .wb }
    have hst : v.streams f = some st := by simp [v, f, st, World.opened, hl.nextStream]
    have hdisk : v.disk real = some [] := by simp [v, World.opened, Mode.openDisk]
    let t := seekToMarker f (transfer .recvToFile f .fclose) ⟨s.client, v⟩
    change t.2.client.dataCallback ≠ none at hgo
    change ∃ real, (toRealPath s.client.cwd path s.world).1 = some real ∧
      t.2.Begins f real .wb s.client.restartMarker.toNat ∧ t.2.world.disk real = some []
    obtain ⟨hr, hseek⟩ := seekToMarker_started (s := ⟨s.client, v⟩) hcb hgo
    obtain ⟨hd, start, eof, hst'⟩ := seek_reaches hst rfl hr
    let u := (seek f s.client.restartMarker v).2
    let v' : Session := ⟨{ s.client with restartMarker := 0 }, u⟩
    have ht : t = transfer .recvToFile f .fclose v' := hseek
    rw [ht] at hgo ⊢
    obtain ⟨hstart, hfiles⟩ := transfer_started (s := v') hcb hgo
    have hs := (congrFun hfiles.streams f).trans hst'
    have hfile := (congrFun (hfiles.disk.trans hd) real).trans hdisk
    exact ⟨real, hreal, ⟨hstart, _, hs, rfl, rfl, fun _ => rfl⟩, hfile⟩

theorem ftpAppe_begins {path : Str} {s : Session} (hcb : s.client.dataCallback = none)
    (hgo : (ftpAppe path s).2.client.dataCallback ≠ none) :
    ∃ real, (toRealPath s.client.cwd path s.world).1 = some real ∧
      (ftpAppe path s).2.Begins s.world.nextStream real .ab 0 := by
  have hrun : ftpAppe path s = storOrAppend (vrtFopen s.client.cwd path .ab s.world).1
      ⟨s.client, (vrtFopen s.client.cwd path .ab s.world).2⟩ := rfl
  rw [hrun] at hgo ⊢
  rcases vrtFopen_cases s.client.cwd path .ab s.world with ⟨hn, -⟩ | ⟨real, w', hreal, hl, -, hrun⟩
  · rw [hn] at hgo
    exact absurd hcb hgo
  · rw [hrun] at hgo ⊢
    let f := s.world.nextStream
    let v := w'.opened (.file real .ab) (Mode.openDisk .ab s.world.disk real)
    let st : Stream := { target := .file real .ab }
    have hst : v.streams f = some st := by simp [v, f, st, World.opened, hl.nextStream]
    obtain ⟨hstart, hfiles⟩ := transfer_started (s := ⟨s.client, v⟩) hcb hgo
    exact ⟨real, hreal, hstart, st, (congrFun hfiles.streams f).trans hst, rfl, rfl,
      fun h => absurd rfl h⟩

/-- For every STOR or APPE that starts a transfer and every sequence of outcomes: the answer is honest
exactly if no close fails after the end of the stream. -/
theorem upload_reply_honest {s : Session} {w : World} {line : Str}
    (ha : s.client.authenticated = true) (hn : Named "STOR" line ∨ Named "APPE" line)
    (hcb : s.client.dataCallback = none)
    (hgo : (ClientEvent.step s (w, .command line)).client.dataCallback ≠ none) :
    let t := ClientEvent.step s (w, .command line)
    ∃ path mode pos, t.Begins w.nextStream path mode pos ∧
      ∀ ws, t.Carried w.nextStream path ws → (Honest w.nextStream path mode pos t ws ↔
        ∀ pre w', ws = pre ++ [w'] → ¬ (t.turns pre).FlushFails w') := by
  rcases hn with hn | hn
  · rw [step_stor ha hn] at hgo ⊢
    obtain ⟨path, -, hb, -⟩ := ftpStor_begins (s := s.handed w line) hcb hgo
    exact ⟨path, _, _, hb, fun ws hc => honest_iff hb.uploads hb.stream hc⟩
  · rw [step_appe ha hn] at hgo ⊢
    obtain ⟨path, -, hb⟩ := ftpAppe_begins (s := s.handed w line) hcb hgo
    exact ⟨path, _, _, hb, fun ws hc => honest_iff hb.uploads hb.stream hc⟩

def World.facing (w : World) (answers : Answers) : World := { w with answers := answers }

def uploader : Session := clientRun connectedWorld 3 {} [(connectedWorld, .command "PASS x".toList)]

def storing : Session :=
  ClientEvent.step uploader (connectedWorld.facing { net := [{ code := 5 }, {}] },
    .command "STOR /sd/f".toList)

/-- The data connection is made. -/
def Session.joining (t : Session) : World := t.world.facing { net := [{}] }

/-- Then these bytes come in and the stream ends; the close has this outcome. -/
def Session.receiving (t : Session) (data : Str) (code : Int) : World :=
  (ClientEvent.step t (t.joining, .data)).world.facing
    { net := [{ data := data }, {}], files := [{}, { code := code }] }

theorem uploader_ready :
    uploader.client.authenticated = true ∧ uploader.client.dataCallback = none := by decide

theorem storing_run :
    let joined := ClientEvent.step storing (storing.joining, .data)
    storing.client.dataCallback.isSome ∧ (storing.world.disk "sd:/f".toList).isSome ∧
      (storing.world.streams 0).map Stream.target = some (.file "sd:/f".toList .wb) ∧
      joined.client.dataCallback.isSome ∧ (joined.world.disk "sd:/f".toList).isSome ∧
      joined.client.dataConnectionConnected = true ∧
      (joined.world.socks joined.client.dataSocket).isSome ∧
      (storing.receiving "ab".toList 0).ending = some [{}] ∧
      (storing.receiving "ab".toList (-1)).ending = some [{ code := -1 }] ∧
      (storing.turns [storing.joining, storing.receiving "ab".toList (-1)]).world.disk
        "sd:/f".toList = some [] := by decide +kernel

theorem storing_carried (code : Int) :
    storing.Carried 0 "sd:/f".toList [storing.joining, storing.receiving "ab".toList code] := by
  obtain ⟨hgo, hfile, -, hgo', hfile', -⟩ := storing_run
  exact ⟨hgo, ⟨rfl, hfile⟩, hgo', ⟨rfl, hfile'⟩, trivial⟩

theorem Session.Begins.path_eq {s : Session} {f : Nat} {path path' : Str} {mode mode' : Mode}
    {pos : Nat} (h : s.Begins f path mode pos)
    (ht : (s.world.streams f).map Stream.target = some (.file path' mode')) : path = path' := by
  obtain ⟨st, hst, htarget, -⟩ := h.stream
  rw [hst, Option.map_some, htarget] at ht
  simp only [Option.some.injEq, Target.file.injEq] at ht
  exact ht.1

theorem upload_reply_honest_stored :
    ∃ mode pos, Honest 0 "sd:/f".toList mode pos storing
      [storing.joining, storing.receiving "ab".toList 0] := by
  have hn : Named "STOR" "STOR /sd/f".toList := by decide
  obtain ⟨path, mode, pos, hb, h⟩ := upload_reply_honest (s := uploader)
    (w := connectedWorld.facing { net := [{ code := 5 }, {}] })
    uploader_ready.1 (.inl hn) uploader_ready.2 (Option.isSome_iff_ne_none.mp storing_run.1)
  obtain rfl := hb.path_eq storing_run.2.2.1
  refine ⟨mode, pos, (h _ (storing_carried 0)).mpr ?_⟩
  rintro pre w' he ⟨-, -, files, hend, hneg⟩
  have hlast : [storing.joining] ++ [storing.receiving "ab".toList 0] = pre ++ [w'] := he
  obtain ⟨-, hw⟩ := List.append_inj' hlast rfl
  obtain rfl : storing.receiving "ab".toList 0 = w' := by simpa using hw
  obtain ⟨-, -, -, -, -, -, -, hleft, -⟩ := storing_run
  obtain rfl : [{}] = files := Option.some.inj (hleft.symm.trans hend)
  exact absurd hneg (by decide)

/-- Two bytes are answered with 226 though the close lost them. -/
theorem upload_flush_lost :
    let ws := [storing.joining, storing.receiving "ab".toList (-1)]
    ∃ path mode pos, storing.Begins 0 path mode pos ∧ storing.Carried 0 path ws ∧
      (storing.turns ws).world.disk path = some [] ∧ ¬ Honest 0 path mode pos storing ws := by
  let w := connectedWorld.facing { net := [{ code := 5 }, {}] }
  have hstep : storing = (ftpStor "/sd/f".toList (uploader.handed w "STOR /sd/f".toList)).2 :=
    step_stor uploader_ready.1 (by decide : Named "STOR" "STOR /sd/f".toList)
  obtain ⟨hgo, -, htarget, -, -, hconn, hsock, -, hleft, hlost⟩ := storing_run
  obtain ⟨path, -, hb, -⟩ := ftpStor_begins (s := uploader.handed w "STOR /sd/f".toList)
    uploader_ready.2 (hstep ▸ Option.isSome_iff_ne_none.mp hgo)
  rw [← hstep] at hb
  obtain rfl := hb.path_eq htarget
  have hcarried := storing_carried (-1)
  refine ⟨_, _, _, hb, hcarried, hlost, fun hh => ?_⟩
  refine (honest_iff hb.uploads hb.stream hcarried).mp hh [storing.joining] _ rfl ?_
  exact ⟨hconn, hsock, _, hleft, by decide⟩

/-! ## Resumed uploads -/

/-- Nothing but the calls changes the file. -/
def Session.Steady (path : Str) : Session → List World → Prop
  | _, [] => True
  | s, w :: ws => w.disk path = s.world.disk path ∧ (ClientEvent.step s (w, .data)).Steady path ws

/-- Where nothing else changes the file, what the calls write stands there in one piece. -/
theorem Stores.content {path : Str} {mode : Mode} {s : Session} {ws : List World} {pos : Nat}
    {data content : Str} (h : Stores path mode s ws pos data) (hs : s.Steady path ws)
    (hc : s.world.disk path = some content) :
    (s.turns ws).world.disk path = some (mode.written content pos data) := by
  induction h generalizing content with
  | nil s pos => simpa [Session.turns, Mode.written_nil] using hc
  | @cons s w ws pos content' moved rest hfound hleft _ ih =>
    obtain ⟨hsame, hs⟩ := hs
    obtain rfl : content = content' := by
      rw [← hsame, hfound] at hc
      exact (Option.some.inj hc).symm
    rw [← Mode.written_append]
    exact ih hs hleft

theorem step_rest_client {s : Session} {w : World} {line : Str} {k : Nat}
    (ha : s.client.authenticated = true) (hn : Named "REST" line)
    (hk : scanLli (argument line) = some (k : Int)) :
    (ClientEvent.step s (w, .command line)).client = { s.client with restartMarker := k } := by
  rw [step_rest ha hn, ftpRest, hk]
  simp +instances only [ite_run, bind_run, update_run, if_neg (Int.natCast_nonneg k).not_gt]
  rfl

/-- The first k bytes of the old content are kept and the data follows them. -/
def Resumed (content : Str) (k : Nat) (data : Str) (result : Option Str) : Prop :=
  ∃ final, result = some final ∧ final.take k = content.take k ∧
    (final.drop k).take data.length = data ∧ (k = 0 → final = data)

/-- A file that starts empty resumes the old one exactly where there was nothing to keep but NULs. -/
theorem resumed_truncated {content : Str} {k : Nat} (hk : k ≤ content.length) (data : Str) :
    Resumed content k data (some (writeAt [] k data)) ↔
      k = 0 ∨ data ≠ [] ∧ content.take k = List.replicate k '\x00' := by
  by_cases hd : data = []
  · subst hd
    have hnil : content.take k = [] ↔ k = 0 := by
      rw [List.take_eq_nil_iff]
      constructor
      · rintro (h | rfl)
        · exact h
        · simpa using hk
      · exact .inl
    simp [Resumed, writeAt, eq_comm (a := []), hnil]
  · have hw : writeAt [] k data = List.replicate k '\x00' ++ data := by simp [writeAt, hd]
    constructor
    · rintro ⟨final, he, hkeep, -, -⟩
      obtain rfl : writeAt [] k data = final := Option.some.inj he
      rw [hw, List.take_left' List.length_replicate] at hkeep
      exact .inr ⟨hd, hkeep.symm⟩
    · intro h
      refine ⟨_, rfl, ?_, ?_, fun hz => ?_⟩
      · rw [hw, List.take_left' List.length_replicate]
        rcases h with rfl | ⟨-, h⟩
        · simp
        · exact h.symm
      · rw [hw, List.drop_left' List.length_replicate, List.take_length]
      · rw [hw, hz]
        rfl

/-- REST k, STOR f and a complete transfer answered 226 keep the first k bytes exactly if there are
none, or the new data follows k NULs. -/
theorem resumed_upload {s : Session} {w₁ w₂ : World} {rest stor : Str} {k : Nat}
    (ha : s.client.authenticated = true) (hcb : s.client.dataCallback = none)
    (hrest : Named "REST" rest) (hk : scanLli (argument rest) = some (k : Int))
    (hstor : Named "STOR" stor) :
    let t₁ := ClientEvent.step s (w₁, .command rest)
    let t := ClientEvent.step t₁ (w₂, .command stor)
    t.client.dataCallback ≠ none →
    ∃ path, (toRealPath s.client.cwd (argument stor) (t₁.handed w₂ stor).world).1 = some path ∧
      ∀ content ws w, w₂.disk path = some content → k ≤ content.length →
        t.Carried w₂.nextStream path (ws ++ [w]) → t.Steady path (ws ++ [w]) →
        (t.turns ws).Answers w 226 → ¬ (t.turns ws).FlushFails w →
        let data := t.uploaded (ws ++ [w])
        (Resumed content k data ((t.turns (ws ++ [w])).world.disk path) ↔
          k = 0 ∨ data ≠ [] ∧ content.take k = List.replicate k '\x00') := by
  intro t₁ t hgo
  have hclient : t₁.client = { s.client with restartMarker := k } := step_rest_client ha hrest hk
  have ht : t = (ftpStor (argument stor) (t₁.handed w₂ stor)).2 :=
    step_stor (by rw [hclient]; exact ha) hstor
  rw [ht] at hgo
  obtain ⟨path, hpath, hb, hempty⟩ := ftpStor_begins (s := t₁.handed w₂ stor)
    (by rw [Session.handed, hclient]; exact hcb) hgo
  have hmark : (t₁.handed w₂ stor).client.restartMarker.toNat = k := by
    rw [Session.handed, hclient]
    rfl
  rw [← ht, hmark] at hb
  rw [← ht] at hempty
  refine ⟨path, ?_, fun content ws w hfile hle hcarried hsteady hans hflush => ?_⟩
  · have hcwd : (t₁.handed w₂ stor).client.cwd = s.client.cwd := by rw [Session.handed, hclient]
    rw [← hcwd]
    exact hpath
  · obtain ⟨hup, -⟩ := hcarried.uploads hb.uploads hb.stream
    have hok : ¬ ((t.turns ws).closing w).code < 0 := fun hcode =>
      hflush ((hup.flushFails_iff w).mpr ⟨hans, hcode⟩)
    have hall := hcarried.stores hb.uploads hb.stream hans hok
    have hfinal := hall.content hsteady hempty
    rw [List.nil_append] at hfinal
    rw [hfinal]
    exact resumed_truncated hle _

def filed (content : Str) : World :=
  { connectedWorld with disk := fun path => if path = "sd:/f".toList then some content else none }

/-- REST and STOR on a file with this content. -/
def resuming (content rest : Str) : Session :=
  ClientEvent.step (ClientEvent.step uploader (filed content, .command rest))
    ((filed content).facing { net := [{ code := 5 }, {}] }, .command "STOR /sd/f".toList)

def replacing : Session := resuming "abc".toList "REST 0".toList

theorem replacing_run :
    let w := (filed "abc".toList).facing { net := [{ code := 5 }, {}] }
    let marked := ClientEvent.step uploader (filed "abc".toList, .command "REST 0".toList)
    let joined := ClientEvent.step replacing (replacing.joining, .data)
    replacing.client.dataCallback.isSome ∧ (replacing.world.disk "sd:/f".toList).isSome ∧
      joined.client.dataCallback.isSome ∧ (joined.world.disk "sd:/f".toList).isSome ∧
      (toRealPath uploader.client.cwd (argument "STOR /sd/f".toList)
        (marked.handed w "STOR /sd/f".toList).world).1 = some "sd:/f".toList ∧
      (dataStep ⟨joined.client, replacing.receiving "X".toList 0⟩).1 = 0 ∧
      (replacing.receiving "X".toList 0).ending = some [{}] ∧
      w.disk "sd:/f".toList = some "abc".toList := by decide +kernel

theorem replacing_carried : replacing.Carried 0 "sd:/f".toList
    [replacing.joining, replacing.receiving "X".toList 0] := by
  obtain ⟨hgo, hfile, hgo', hfile', -⟩ := replacing_run
  exact ⟨hgo, ⟨rfl, hfile⟩, hgo', ⟨rfl, hfile'⟩, trivial⟩

theorem resumed_upload_replaces :
    let ws := [replacing.joining, replacing.receiving "X".toList 0]
    Resumed "abc".toList 0 (replacing.uploaded ws)
      ((replacing.turns ws).world.disk "sd:/f".toList) := by
  let w := (filed "abc".toList).facing { net := [{ code := 5 }, {}] }
  obtain ⟨hgo, -, -, -, hreal, hdone, hleft, hfile⟩ := replacing_run
  have ht : ClientEvent.step (ClientEvent.step uploader (filed "abc".toList,
      .command "REST 0".toList)) (w, .command "STOR /sd/f".toList) = replacing := rfl
  have hbegun : (ClientEvent.step (ClientEvent.step uploader (filed "abc".toList,
      .command "REST 0".toList)) (w, .command "STOR /sd/f".toList)).client.dataCallback ≠ none := by
    rw [ht]
    exact Option.isSome_iff_ne_none.mp hgo
  obtain ⟨path, hpath, h⟩ := @resumed_upload uploader (filed "abc".toList) w "REST 0".toList
    "STOR /sd/f".toList 0 uploader_ready.1 uploader_ready.2 (by decide) (by decide) (by decide)
    hbegun
  obtain rfl : "sd:/f".toList = path := Option.some.inj (hreal.symm.trans hpath)
  rw [ht] at h
  refine (h "abc".toList [replacing.joining] (replacing.receiving "X".toList 0) hfile
    (by decide) replacing_carried ⟨rfl, rfl, trivial⟩ ?_ ?_).mpr (.inl rfl)
  · rw [answers_226_iff]
    exact hdone
  · rintro ⟨-, -, files, hend, hneg⟩
    obtain rfl : [{}] = files := Option.some.inj (hleft.symm.trans hend)
    exact absurd hneg (by decide)

/-- REST and STOR that are to keep two bytes. -/
def destroying : Session := resuming "abc".toList "REST 2".toList

/-- REST 2 before an upload loses what it was to keep. -/
theorem resumed_upload_destroys :
    let ws := [destroying.joining, destroying.receiving "X".toList 0]
    destroying.Begins 0 "sd:/f".toList .wb 2 ∧ destroying.Carried 0 "sd:/f".toList ws ∧
      destroying.Steady "sd:/f".toList ws ∧
      (destroying.turns [destroying.joining]).Answers (destroying.receiving "X".toList 0) 226 ∧
      ¬ Resumed "abc".toList 2 (destroying.uploaded ws)
        ((destroying.turns ws).world.disk "sd:/f".toList) := by
  obtain ⟨hleft, hstream, hrunning, hgo, hfile, hgo', hfile', hdone⟩ :
      (destroying.turns [destroying.joining, destroying.receiving "X".toList 0]).world.disk
        "sd:/f".toList = some "\x00\x00X".toList ∧
      (destroying.world.streams 0).map (fun st => (st.target, st.pending, st.pos)) =
        some (.file "sd:/f".toList .wb, [], 2) ∧
      (destroying.client.dataCallback = some .recvToFile ∧
        destroying.client.dataConnectionCallbackArg = some 0) ∧
      destroying.client.dataCallback.isSome ∧ (destroying.world.disk "sd:/f".toList).isSome ∧
      (destroying.turns [destroying.joining]).client.dataCallback.isSome ∧
      ((destroying.turns [destroying.joining]).world.disk "sd:/f".toList).isSome ∧
      (dataStep ⟨(destroying.turns [destroying.joining]).client,
        destroying.receiving "X".toList 0⟩).1 = 0 := by decide +kernel
  refine ⟨⟨?_, ?_⟩, ?_, ⟨rfl, rfl, trivial⟩, ?_, ?_⟩
  · constructor <;> decide +kernel
  · obtain ⟨st, hst, he⟩ := Option.map_eq_some_iff.mp hstream
    simp only [Prod.mk.injEq] at he
    exact ⟨st, hst, he.1, he.2.1, fun _ => he.2.2⟩
  · exact ⟨hgo, ⟨rfl, hfile⟩, hgo', ⟨rfl, hfile'⟩, trivial⟩
  · rw [answers_226_iff]
    exact hdone
  · rintro ⟨final, he, hkeep, -, -⟩
    obtain rfl : "\x00\x00X".toList = final := Option.some.inj (hleft.symm.trans he)
    exact absurd hkeep (by decide)

end Ftpii
