import Ftpii.DolImage
import Ftpii.Downloads
import Ftpii.Renaming
import Mathlib.Data.List.GetD
set_option autoImplicit false

/-!
loader.c over the console's memory: SITE LOAD reads the file to a fixed address, builds the argv of
the new program and runs the image from there.
-/

namespace Ftpii
open StateProgram Prog AddressSpace

/-! ## Bytes in memory -/

section Bytes

variable {p : Addr} {bytes : List (BitVec 8)} {mem : Ram}

theorem bytesAt_outside {a : Addr} (h : ¬ Within a p bytes.length) : bytesAt p bytes mem a = mem a :=
  List.getD_eq_default _ _ (Nat.not_lt.mp h)

theorem bytesAt_within {a : Addr} (h : Within a p bytes.length) :
    bytesAt p bytes mem a = bytes.get ⟨(a - p).toNat, h⟩ := List.getD_eq_getElem _ _ h

theorem bytesAt_offset {i : Nat} (h : i < bytes.length) (hfit : bytes.length ≤ 2 ^ 32) :
    bytesAt p bytes mem (p + BitVec.ofNat 32 i) = bytes[i] := by
  have hoff : (p + BitVec.ofNat 32 i - p).toNat = i := by
    rw [add_sub_offset, BitVec.toNat_ofNat, Nat.mod_eq_of_lt (by omega)]
  rw [bytesAt_within (within_offset h hfit)]
  simp only [hoff, List.get_eq_getElem]

theorem bytesAt_nil : bytesAt p [] mem = mem := rfl

theorem bytesAt_append {more : List (BitVec 8)} (h : bytes.length + more.length ≤ 2 ^ 32) :
    bytesAt (p + BitVec.ofNat 32 bytes.length) more (bytesAt p bytes mem) =
      bytesAt p (bytes ++ more) mem := by
  funext a
  have hlt := (a - p).isLt
  have hoff : a - (p + BitVec.ofNat 32 bytes.length) = a - p - BitVec.ofNat 32 bytes.length := by
    ring
  by_cases hnone : more.length = 0
  · obtain rfl := List.eq_nil_of_length_eq_zero hnone
    rw [bytesAt_nil, List.append_nil]
  · have hsmall : (BitVec.ofNat 32 bytes.length).toNat = bytes.length := by
      rw [BitVec.toNat_ofNat, Nat.mod_eq_of_lt (by omega)]
    simp only [bytesAt, hoff]
    by_cases hin : (a - p).toNat < bytes.length
    · have hwrap : more.length ≤ (a - p - BitVec.ofNat 32 bytes.length).toNat := by
        rw [BitVec.toNat_sub, hsmall]
        omega
      rw [List.getD_eq_default _ _ hwrap, List.getD_append _ _ _ _ hin]
    · have hsub : (a - p - BitVec.ofNat 32 bytes.length).toNat = (a - p).toNat - bytes.length := by
        rw [BitVec.toNat_sub, hsmall]
        omega
      rw [hsub, List.getD_append_right _ _ _ _ (by omega), List.getD_eq_default bytes _ (by omega)]

end Bytes

/-! ## The console -/

/-- A client's session, with the memory of the console it runs on. -/
structure Machine where
  session : Session
  ram : Ram
  /-- where the processor was sent -/
  started : Option Addr

abbrev Mach := Prog Machine

def onSession {α : Type} (m : Ses α) : Mach α :=
  zoom Machine.session (fun s m => { m with session := s }) m

def onWorld {α : Type} (m : Os α) : Mach α := onSession (os m)

def onRam (f : Ram → Ram) : Mach Unit := modify fun m => { m with ram := f m.ram }

def byte (c : Char) : BitVec 8 := BitVec.ofNat 8 c.toNat

def bytes (s : Str) : List (BitVec 8) := s.map byte

/-- Where the fields of `struct __argv` lie in it. -/
structure ArgvFields extends ArgvLayout where
  commandLineAt : Nat
  lengthAt : Nat
  argcAt : Nat
  argvAt : Nat
  endArgvAt : Nat
  fits : ∀ k ∈ [magicAt, lengthAt, commandLineAt, argcAt, argvAt, endArgvAt], k + 4 ≤ size
  disjoint : [magicAt, lengthAt, commandLineAt, argcAt, argvAt, endArgvAt].Pairwise fun j k =>
    j + 4 ≤ k ∨ k + 4 ≤ j

/-- Where load_from_file's argv lies, and the block malloc gives it. -/
structure Placement where
  argv : Addr
  commandLine : Addr

namespace Loader

def LOAD_ADDRESS : Addr := 0x92000000

/-- The rounds Ftpii.readFromFile allows itself. -/
def readBound (f : Nat) (w : World) : Nat :=
  ((w.streams f).map fun st => match st.target with
    | .file path _ => ((w.disk path).getD []).length
    | _ => 0).getD 0 + w.answers.files.length + 2

def readRound (f : Nat) (buf : Addr) : Mach (Addr ⊕ Bool) := do
  let data ← onWorld (fread f 0x8000)
  onRam (bytesAt buf (bytes data))
  let buf := if 0 < data.length then buf + BitVec.ofNat 32 data.length else buf
  if data.length < 0x8000 then .inr <$> onWorld (feof f) else pure (.inl buf)

def readFromFile (buf : Addr) (f : Nat) : Mach Bool := do
  let fuel ← gets fun m => readBound f m.session.world
  iterate fuel (readRound f) (fun _ => false) buf

def runDol (layout : ArgvLayout) (dol argv : Addr) : Mach Unit := do
  modify fun m =>
    let (ep, ram) := loadDolImage layout dol argv m.ram
    { m with ram := ram, started := some ep }
  onWorld (modify fun w => { w with dolStarted := true })

def loadFromFile (layout : ArgvFields) (p : Placement) (f : Nat) (arg : Str) : Mach Unit := do
  let length := arg.length + 2
  onRam (bytesAt p.argv (List.replicate layout.size 0))
  onRam (storeFields p.argv [(layout.magicAt, layout.ARGV_MAGIC),
    (layout.lengthAt, BitVec.ofNat 32 length)])
  let commandLine ← onWorld malloc
  onRam (storeFields p.argv [(layout.commandLineAt, if commandLine then p.commandLine else 0)])
  if !commandLine then pure ()
  else do
    onRam (bytesAt p.commandLine (bytes (arg ++ ['\x00'])))
    onRam (bytesAt (p.commandLine + BitVec.ofNat 32 (length - 1)) [0])
    let argv := p.argv + BitVec.ofNat 32 layout.commandLineAt
    onRam (storeFields p.argv [(layout.argcAt, 1), (layout.argvAt, argv),
      (layout.endArgvAt, argv + 4)])
    let (error, _) ← onWorld (fstat f)
    if error ≠ 0 then pure ()
    else do
      let ok ← readFromFile LOAD_ADDRESS f
      if ok then runDol layout.toArgvLayout LOAD_ADDRESS p.argv else pure ()

def loadRealPath (layout : ArgvFields) (p : Placement) (cwd path : Str) (f : Nat) : Mach Unit := do
  match ← onWorld (toRealPath cwd path) with
  | none => pure ()
  | some realPath => loadFromFile layout p f realPath

def ftpSiteLoad (layout : ArgvFields) (p : Placement) (path : Str) : Mach Int := do
  let c ← onSession client
  match ← onWorld (vrtFopen c.cwd path .rb) with
  | none => onSession replyErrno
  | some f => do
    loadRealPath layout p c.cwd path f
    onWorld (runCleanup .fclose f)
    onSession (writeReply 500 "Unable to load.".toList)

/-! ## The session as before -/

theorem onSession_refines {α : Type} (m : Ses α) : Refines Machine.session (onSession m) m :=
  .zoom (fun _ _ => rfl) m

/-- What m does to the session is what k does to its world. -/
def Plays {α : Type} (m : Mach α) (k : Os α) : Prop := Refines Machine.session m (os k)

section Plays

variable {α β : Type}

theorem Plays.pure (a : α) : Plays (pure a) (pure a) := Refines.pure a

theorem Plays.bind {m : Mach α} {k : Os α} {f : α → Mach β} {g : α → Os β} (hm : Plays m k)
    (hf : ∀ a, Plays (f a) (g a)) : Plays (m >>= f) (k >>= g) := Refines.bind hm hf

theorem Plays.ite {c : Prop} [Decidable c] {m m' : Mach α} {k k' : Os α} (hm : Plays m k)
    (hm' : Plays m' k') : Plays (if c then m else m') (if c then k else k') := by
  split
  · exact hm
  · exact hm'

theorem Plays.gets (f : World → α) : Plays (Prog.gets fun m => f m.session.world) (Prog.gets f) :=
  fun _ => rfl

theorem Plays.onWorld (m : Os α) : Plays (onWorld m) m := onSession_refines (os m)

theorem Plays.onRam (f : Ram → Ram) {m : Mach α} {k : Os α} (hm : Plays m k) :
    Plays (onRam f >>= fun _ => m) k := by
  have hsame : ∀ m : Machine, Machine.session { m with ram := f m.ram } = m.session := fun _ => rfl
  exact Refines.hidden hsame hm

theorem Plays.iterate {γ δ : Type} {body : β → Mach (β ⊕ γ)} {body' : δ → Os (δ ⊕ γ)}
    {out : β → γ} {out' : δ → γ} (proj : β → δ)
    (hbody : ∀ b, Plays (Sum.map proj id <$> body b) (body' (proj b)))
    (hout : ∀ b, out' (proj b) = out b) (n : Nat) (b : β) :
    Plays (Prog.iterate n body out b) (Prog.iterate n body' out' (proj b)) := by
  let inner : δ → Ses (δ ⊕ γ) := fun d => os (body' d)
  have hrounds : ∀ b, Refines Machine.session (Sum.map proj id <$> body b) (inner (proj b)) := hbody
  have hloop : os (Prog.iterate n body' out' (proj b)) = Prog.iterate n inner out' (proj b) :=
    @zoom_iterate _ _ _ _ Session.world (fun w s => { s with world := w }) (fun _ _ => rfl)
      (fun _ => rfl) (fun _ _ _ => rfl) body' out' n (proj b)
  rw [Plays, hloop]
  exact .iterate proj hrounds hout n b

end Plays

theorem readFromFile_plays (buf : Addr) (f : Nat) :
    Plays (readFromFile buf f) (Ftpii.readFromFile f) := by
  refine .bind (.gets (readBound f)) fun fuel => ?_
  refine .iterate (fun _ => ()) (fun buf => ?_) (fun _ => rfl) fuel buf
  intro m
  by_cases hshort : (fread f 0x8000 m.session.world).1.length < 0x8000
  · simp [readRound, os, onWorld, onSession, onRam, hshort]
  · simp [readRound, os, onWorld, onSession, onRam, hshort]

theorem runDol_plays (layout : ArgvLayout) (dol argv : Addr) :
    Plays (runDol layout dol argv) (modify fun w => { w with dolStarted := true }) :=
  fun _ => rfl

theorem loadFromFile_plays (layout : ArgvFields) (p : Placement) (f : Nat) (arg : Str) :
    Plays (loadFromFile layout p f arg) (Ftpii.loadFromFile f) := by
  refine .onRam _ (.onRam _ (.bind (.onWorld malloc) fun commandLine => .onRam _ ?_))
  refine .ite (.pure ()) (.onRam _ (.onRam _ (.onRam _ ?_)))
  refine .bind (.onWorld (fstat f)) fun r => .ite (.pure ()) ?_
  refine .bind (readFromFile_plays LOAD_ADDRESS f) fun ok => ?_
  exact .ite (runDol_plays _ _ _) (.pure ())

theorem loadRealPath_plays (layout : ArgvFields) (p : Placement) (cwd path : Str) (f : Nat) :
    Plays (loadRealPath layout p cwd path f) (Ftpii.loadRealPath cwd path f) := by
  refine .bind (.onWorld (toRealPath cwd path)) fun real => ?_
  cases real with
  | none => exact .pure ()
  | some realPath => exact loadFromFile_plays layout p f realPath

/-- SITE LOAD answers and leaves the session as ftp_SITE_LOAD over the session alone. -/
theorem ftpSiteLoad_refines (layout : ArgvFields) (p : Placement) (path : Str) :
    Refines Machine.session (ftpSiteLoad layout p path) (Ftpii.ftpSiteLoad path) := by
  refine .bind (onSession_refines client) fun c => ?_
  refine .bind (Plays.onWorld (vrtFopen c.cwd path .rb)) fun o => ?_
  cases o with
  | none => exact onSession_refines replyErrno
  | some f =>
    refine .bind (loadRealPath_plays layout p c.cwd path f) fun _ => ?_
    refine .bind (Plays.onWorld (runCleanup .fclose f)) fun _ => ?_
    exact onSession_refines _

/-! ## Reading the file -/

/-- The first n bytes of the file are read to buf, and the rest of memory is as in m₀. -/
structure ReadTo (f : Nat) (path content : Str) (buf : Addr) (m₀ : Machine) (n : Nat)
    (m : Machine) : Prop where
  stream : OnFile f path .rb content n [] m.session.world
  le : n ≤ content.length
  ram : m.ram = bytesAt buf (bytes (content.take n)) m₀.ram
  started : m.started = m₀.started

theorem bytes_length (s : Str) : (bytes s).length = s.length := List.length_map _

section Reading

variable {f : Nat} {path content : Str} {buf : Addr} {m₀ m : Machine} {n : Nat}

theorem ReadTo.start (hf : OnFile f path .rb content 0 [] m.session.world) :
    ReadTo f path content buf m 0 m where
  stream := hf
  le := Nat.zero_le _
  ram := rfl
  started := rfl

/-- A round reads one chunk behind what was read by one call, and ends at a short one. -/
theorem ReadTo.round (h : ReadTo f path content buf m₀ n m) (hfit : content.length ≤ 2 ^ 32) :
    let data := m.session.world.fileOutcome.chunk (content.drop n) 0x8000
    let r := readRound f (buf + BitVec.ofNat 32 n) m
    ReadTo f path content buf m₀ (n + data.length) r.2 ∧
      r.2.session.world.answers.files = m.session.world.answers.files.tail ∧
      r.1 = if data.length < 0x8000 then .inr (decide (0 ≤ m.session.world.fileOutcome.code))
        else .inl (buf + BitVec.ofNat 32 (n + data.length)) := by
  obtain ⟨⟨st, hst, ht, hpending, hpos⟩, hc⟩ := h.stream
  obtain rfl := hpos (by decide)
  let w := m.session.world
  let data := w.fileOutcome.chunk (content.drop st.pos) 0x8000
  let eof := decide (0 ≤ w.fileOutcome.code ∧ data.length < 0x8000)
  let v := w.advance f st data.length eof
  have hread : fread f 0x8000 w = (data, v) := fread_run hst ht hc _
  have hprefix : data <+: content.drop st.pos := w.fileOutcome.chunk_prefix _ _
  have hle : st.pos + data.length ≤ content.length := by
    have hlen := hprefix.length_le
    rw [List.length_drop] at hlen
    have hn := h.le
    omega
  have htake : content.take (st.pos + data.length) = content.take st.pos ++ data := by
    rw [List.take_add, ← List.prefix_iff_eq_take.mp hprefix]
  have hv : v.streams f = some { st with pos := st.pos + data.length, eof := eof } := by
    simp [v, World.advance, World.setStream]
  have hram : bytesAt (buf + BitVec.ofNat 32 st.pos) (bytes data) m.ram =
      bytesAt buf (bytes (content.take (st.pos + data.length))) m₀.ram := by
    have hlen : (bytes (content.take st.pos)).length = st.pos := by
      rw [bytes_length, List.length_take, Nat.min_eq_left h.le]
    have hsum : (bytes (content.take st.pos)).length + (bytes data).length ≤ 2 ^ 32 := by
      rw [hlen, bytes_length]
      omega
    have happ : bytesAt (buf + BitVec.ofNat 32 (bytes (content.take st.pos)).length) (bytes data)
        (bytesAt buf (bytes (content.take st.pos)) m₀.ram) =
        bytesAt buf (bytes (content.take st.pos) ++ bytes data) m₀.ram := bytesAt_append hsum
    rw [hlen] at happ
    rw [h.ram, happ, htake, bytes, bytes, bytes, List.map_append]
  have hnext : (if 0 < data.length then buf + BitVec.ofNat 32 st.pos + BitVec.ofNat 32 data.length
      else buf + BitVec.ofNat 32 st.pos) = buf + BitVec.ofNat 32 (st.pos + data.length) := by
    split
    · rw [BitVec.add_assoc, ← BitVec.ofNat_add]
    · rename_i hzero
      rw [Nat.eq_zero_of_not_pos hzero, Nat.add_zero]
  let m' : Machine :=
    { session := { m.session with world := v }
      ram := bytesAt (buf + BitVec.ofNat 32 st.pos) (bytes data) m.ram
      started := m.started }
  have hrun : readRound f (buf + BitVec.ofNat 32 st.pos) m =
      (if data.length < 0x8000 then .inr (feof f v).1
        else .inl (buf + BitVec.ofNat 32 (st.pos + data.length)), m') := by
    have hw : onWorld (fread f 0x8000) m = (data, { m with session := { m.session with world := v } }) := by
      simp only [onWorld, onSession, os, zoom_run]
      rw [hread]
    simp only [readRound, bind_run, hw, hnext]
    by_cases hshort : data.length < 0x8000
    · simp only [if_pos hshort]
      rfl
    · simp only [if_neg hshort]
      rfl
  have hread' : ReadTo f path content buf m₀ (st.pos + data.length) m' :=
    { stream := ⟨⟨_, hv, ht, hpending, fun _ => rfl⟩, hc⟩
      le := hle
      ram := hram
      started := h.started }
  refine ⟨?_, ?_, ?_⟩
  · rw [hrun]
    exact hread'
  · rw [hrun]
    rfl
  · rw [hrun]
    by_cases hshort : data.length < 0x8000
    · have heof : (feof f v).1 = decide (0 ≤ w.fileOutcome.code) := by
        simp [feof, hv, eof, hshort]
      simp only [data, w] at hshort ⊢
      rw [if_pos hshort, if_pos hshort]
      exact congrArg Sum.inr heof
    · simp only [data, w] at hshort ⊢
      rw [if_neg hshort, if_neg hshort]

/-- None of the next n file calls reports an error. -/
def NoFileError (n : Nat) (w : World) : Prop := ∀ a ∈ w.answers.files.take n, 0 ≤ a.code

theorem NoFileError.outcome {n : Nat} {w v : World} {k : Nat} (h : NoFileError n w) (hk : k < n)
    (hv : v.answers.files = w.answers.files.drop k) : 0 ≤ v.fileOutcome.code := by
  rw [World.fileOutcome, hv]
  cases hf : w.answers.files.drop k with
  | nil => simp
  | cons a as =>
    have hget : w.answers.files[k]? = some a := by rw [← List.head?_drop, hf, List.head?_cons]
    have hmem : a ∈ w.answers.files.take n :=
      List.mem_of_getElem? ((List.getElem?_take_of_lt hk).trans hget)
    exact h a hmem

def position (f : Nat) (w : World) : Nat := ((w.streams f).map Stream.pos).getD 0

theorem ReadTo.position (h : ReadTo f path content buf m₀ n m) :
    position f m.session.world = n := by
  obtain ⟨⟨st, hst, -, -, hpos⟩, -⟩ := h.stream
  simp [Loader.position, hst, hpos (by decide)]

/-- The calls of fread that read a whole file. -/
def reads (content : Str) : Nat := content.length / 0x8000 + 1

/-- The file is read to memory as far as it could be, all of it if success is reported, and success
is reported unless a file call fails. -/
theorem readFromFile_reads (hf : OnFile f path .rb content 0 [] m.session.world)
    (hfit : content.length ≤ 2 ^ 32) :
    let r := readFromFile buf f m
    ∃ n, ReadTo f path content buf m n r.2 ∧ (r.1 = true → n = content.length) ∧
      (NoFileError (reads content) m.session.world → r.1 = true) := by
  have hbound : content.length < readBound f m.session.world := by
    obtain ⟨⟨st, hst, ht, -⟩, hc⟩ := hf
    simp [readBound, hst, ht, hc]
    omega
  refine iterate_rule_of_lt (fun _ m' => content.length - position f m'.session.world)
    (fun b m' => ∃ k, b = buf + BitVec.ofNat 32 (k * 0x8000) ∧
      ReadTo f path content buf m (k * 0x8000) m' ∧
      m'.session.world.answers.files = m.session.world.answers.files.drop k)
    (fun ok m' => ∃ n, ReadTo f path content buf m n m' ∧ (ok = true → n = content.length) ∧
      (NoFileError (reads content) m.session.world → ok = true)) ?_ ?_ _ ?_ ?_
  · intro b m' b' hinv hgo
    obtain ⟨k, rfl, h, hfiles⟩ := hinv
    obtain ⟨hread, htail, hr⟩ := h.round hfit
    rw [hgo] at hr
    split at hr
    · contradiction
    · rename_i hfull
      obtain rfl := Sum.inl.inj hr
      have hlen : (m'.session.world.fileOutcome.chunk (content.drop (k * 0x8000)) 0x8000).length =
          0x8000 := le_antisymm (FileAnswer.chunk_le _ _ _) (Nat.not_lt.mp hfull)
      have hnext : k * 0x8000 + 0x8000 = (k + 1) * 0x8000 := (Nat.succ_mul k 0x8000).symm
      rw [hlen, hnext] at hread ⊢
      refine ⟨⟨k + 1, rfl, hread, ?_⟩, ?_⟩
      · rw [htail, hfiles, List.tail_drop]
      · have hle := hread.le
        rw [h.position, hread.position]
        omega
  · intro b m' ok hinv hend
    obtain ⟨k, rfl, h, hfiles⟩ := hinv
    obtain ⟨hread, -, hr⟩ := h.round hfit
    rw [hend] at hr
    split at hr
    · rename_i hshort
      obtain rfl := Sum.inr.inj hr
      have hle := h.le
      refine ⟨_, hread, fun hok => ?_, fun hno => ?_⟩
      · have hcode : ¬ m'.session.world.fileOutcome.code < 0 := by simpa using hok
        rw [FileAnswer.chunk_short hcode hshort, List.length_drop]
        omega
      · have hk : k < reads content := Nat.lt_succ_of_le ((Nat.le_div_iff_mul_le (by decide)).mpr hle)
        exact decide_eq_true (hno.outcome hk hfiles)
    · contradiction
  · exact lt_of_le_of_lt (Nat.sub_le _ _) hbound
  · exact ⟨0, by simp, .start hf, rfl⟩

end Reading

/-! ## The argv of the new program -/

/-- The text argv points at: the path, ended twice. -/
def argText (arg : Str) : List (BitVec 8) := bytes (arg ++ ['\x00', '\x00'])

theorem argText_length (arg : Str) : (argText arg).length = arg.length + 2 := by
  rw [argText, bytes_length, List.length_append]
  rfl

/-- The fields that load_from_file gives argv, in its order. -/
def argvFields (layout : ArgvFields) (p : Placement) (arg : Str) : List (Nat × BitVec 32) :=
  [(layout.magicAt, layout.ARGV_MAGIC), (layout.lengthAt, BitVec.ofNat 32 (arg.length + 2)),
    (layout.commandLineAt, p.commandLine), (layout.argcAt, 1),
    (layout.argvAt, p.argv + BitVec.ofNat 32 layout.commandLineAt),
    (layout.endArgvAt, p.argv + BitVec.ofNat 32 layout.commandLineAt + 4)]

def argvBuilt (layout : ArgvFields) (p : Placement) (arg : Str) (mem : Ram) : Ram :=
  storeFields p.argv ((argvFields layout p arg).drop 3)
    (bytesAt p.commandLine (argText arg)
      (storeFields p.argv ((argvFields layout p arg).take 3)
        (bytesAt p.argv (List.replicate layout.size 0) mem)))

/-- The image, argv and its text lie apart. -/
structure Clear (layout : ArgvFields) (p : Placement) (content arg : Str) : Prop where
  image_argv : AddressSpace.Apart LOAD_ADDRESS content.length p.argv layout.size
  image_text : AddressSpace.Apart LOAD_ADDRESS content.length p.commandLine (arg.length + 2)
  argv_text : AddressSpace.Apart p.argv layout.size p.commandLine (arg.length + 2)

section Argv

variable {layout : ArgvFields} {p : Placement} {arg content : Str}

theorem argvFields_fit : ∀ v ∈ argvFields layout p arg, v.1 + 4 ≤ layout.size := by
  intro v hv
  have hmem : v.1 ∈ (argvFields layout p arg).map Prod.fst := List.mem_map_of_mem hv
  exact layout.fits v.1 hmem

theorem argvFields_apart : (argvFields layout p arg).Pairwise FieldsApart := by
  have hpair : ((argvFields layout p arg).map Prod.fst).Pairwise
      fun j k => j + 4 ≤ k ∨ k + 4 ≤ j := layout.disjoint
  exact (List.pairwise_map (f := Prod.fst)).mp hpair

theorem argvBuilt_fields (h : Clear layout p content arg) {mem : Ram} {v : Nat × BitVec 32}
    (hv : v ∈ argvFields layout p arg) :
    word (argvBuilt layout p arg mem) (p.argv + BitVec.ofNat 32 v.1) = v.2 := by
  have hsize := layout.size_le
  have hsplit := List.take_append_drop 3 (argvFields layout p arg)
  have hpair : (argvFields layout p arg).Pairwise FieldsApart := argvFields_apart
  rw [← hsplit] at hpair hv
  obtain ⟨hfirst, hlast, hacross⟩ := List.pairwise_append.mp hpair
  have hfits : ∀ u ∈ (argvFields layout p arg).drop 3, u.1 + 4 ≤ layout.size := fun u hu =>
    argvFields_fit u (List.mem_of_mem_drop hu)
  rcases List.mem_append.mp hv with hv | hv
  · have hk := argvFields_fit v (List.mem_of_mem_take hv)
    let before := storeFields p.argv ((argvFields layout p arg).take 3)
      (bytesAt p.argv (List.replicate layout.size 0) mem)
    have htext : word (bytesAt p.commandLine (argText arg) before) (p.argv + BitVec.ofNat 32 v.1) =
        word before (p.argv + BitVec.ofNat 32 v.1) := by
      refine word_congr (fun a ha => bytesAt_outside ?_) rfl hk hsize
      rw [argText_length]
      exact h.argv_text a ha
    rw [argvBuilt, word_storeFields_apart hsize hfits hk (hacross v hv), htext]
    exact word_storeFields hsize (fun u hu => argvFields_fit u (List.mem_of_mem_take hu)) hfirst hv
  · exact word_storeFields hsize hfits hlast hv

theorem argvBuilt_text (h : Clear layout p content arg) (hle : arg.length + 2 ≤ 2 ^ 32) {mem : Ram}
    {i : Nat} (hi : i < (argText arg).length) :
    argvBuilt layout p arg mem (p.commandLine + BitVec.ofNat 32 i) = (argText arg)[i] := by
  have hlen := argText_length arg
  have hin : Within (p.commandLine + BitVec.ofNat 32 i) p.commandLine (arg.length + 2) :=
    within_offset (by omega) hle
  rw [argvBuilt, storeFields_outside layout.size_le
    (fun v hv => argvFields_fit v (List.mem_of_mem_drop hv)) fun ha => h.argv_text _ ha hin]
  exact bytesAt_offset hi (by omega)

theorem argvBuilt_outside {mem : Ram} {a : Addr} (hargv : ¬ Within a p.argv layout.size)
    (htext : ¬ Within a p.commandLine (arg.length + 2)) : argvBuilt layout p arg mem a = mem a := by
  have hfit := layout.size_le
  have hzero : ¬ Within a p.argv (List.replicate layout.size (0 : BitVec 8)).length := by
    rwa [List.length_replicate]
  rw [← argText_length] at htext
  rw [argvBuilt, storeFields_outside hfit (fun v hv => argvFields_fit v (List.mem_of_mem_drop hv)) hargv,
    bytesAt_outside htext,
    storeFields_outside hfit (fun v hv => argvFields_fit v (List.mem_of_mem_take hv)) hargv,
    bytesAt_outside hzero]

end Argv

/-! ## What is started -/

def ImageAt (content : Str) (mem : Ram) : Prop :=
  ∀ i (h : i < content.length), mem (LOAD_ADDRESS + BitVec.ofNat 32 i) = byte content[i]

/-- Memory as it is handed to load_dol_image: the file behind LOAD_ADDRESS, argv with the path the
file was found at, and everything else as before. -/
structure Staged (layout : ArgvFields) (p : Placement) (arg content : Str) (before mem : Ram) :
    Prop where
  image : ImageAt content mem
  argv : ∀ v ∈ argvFields layout p arg, word mem (p.argv + BitVec.ofNat 32 v.1) = v.2
  text : ∀ i (h : i < (argText arg).length),
    mem (p.commandLine + BitVec.ofNat 32 i) = (argText arg)[i]
  rest : ∀ a, ¬ Within a LOAD_ADDRESS content.length → ¬ Within a p.argv layout.size →
    ¬ Within a p.commandLine (arg.length + 2) → mem a = before a

section Staging

variable {layout : ArgvFields} {p : Placement} {arg content : Str}

theorem bytesAt_image (hle : content.length ≤ 2 ^ 32) (mem : Ram) :
    ImageAt content (bytesAt LOAD_ADDRESS (bytes content) mem) := by
  intro i hi
  have hlen := bytes_length content
  rw [bytesAt_offset (by omega) (by omega)]
  simp [bytes]

theorem bytesAt_staged (h : Clear layout p content arg) (himage : content.length ≤ 2 ^ 32)
    (htext : arg.length + 2 ≤ 2 ^ 32) (before : Ram) : Staged layout p arg content before
      (bytesAt LOAD_ADDRESS (bytes content) (argvBuilt layout p arg before)) where
  image := bytesAt_image himage _
  argv v hv := by
    refine (word_congr (fun a ha => bytesAt_outside fun hin => ?_) rfl (argvFields_fit v hv)
      layout.size_le).trans (argvBuilt_fields h hv)
    rw [bytes_length] at hin
    exact h.image_argv a hin ha
  text i hi := by
    have hlen := argText_length arg
    have hin : Within (p.commandLine + BitVec.ofNat 32 i) p.commandLine (arg.length + 2) :=
      within_offset (by omega) htext
    rw [bytesAt_outside fun ha => ?_, argvBuilt_text h htext hi]
    rw [bytes_length] at ha
    exact h.image_text _ ha hin
  rest a himage hargv htext := by
    rw [← bytes_length] at himage
    rw [bytesAt_outside himage, argvBuilt_outside hargv htext]

end Staging

section Starting

variable {layout : ArgvFields} {p : Placement} {f : Nat} {arg : Str} {m : Machine}

theorem bytesAt_argText (h : arg.length + 2 ≤ 2 ^ 32) (mem : Ram) :
    bytesAt (p.commandLine + BitVec.ofNat 32 (arg.length + 2 - 1)) [0]
      (bytesAt p.commandLine (bytes (arg ++ ['\x00'])) mem) =
    bytesAt p.commandLine (argText arg) mem := by
  have hlen : (bytes (arg ++ ['\x00'])).length = arg.length + 2 - 1 := by
    rw [bytes_length, List.length_append]
    rfl
  have htext : argText arg = bytes (arg ++ ['\x00']) ++ [0] := by
    simp [argText, bytes, byte]
  have hsum : (bytes (arg ++ ['\x00'])).length + [(0 : BitVec 8)].length ≤ 2 ^ 32 := by
    rw [hlen, List.length_singleton]
    omega
  rw [htext, ← bytesAt_append hsum, hlen]

/-- With the text allocated and fstat done the file is read and run, argv built; otherwise nothing is
started. -/
theorem loadFromFile_cases (htext : arg.length + 2 ≤ 2 ^ 32) :
    let w := m.session.world
    let m₁ : Machine :=
      { session := { m.session with world := (fstat f (malloc w).2).2 }
        ram := argvBuilt layout p arg m.ram
        started := m.started }
    if (malloc w).1 = true ∧ (fstat f (malloc w).2).1.1 = 0 then
      loadFromFile layout p f arg m = (readFromFile LOAD_ADDRESS f >>= fun ok =>
        if ok then runDol layout.toArgvLayout LOAD_ADDRESS p.argv else pure ()) m₁
    else (loadFromFile layout p f arg m).2.started = m.started := by
  intro w m₁
  cases ha : (malloc m.session.world).1 with
  | false => simp [loadFromFile, onRam, onWorld, onSession, os, w, ha]
  | true =>
    by_cases he : (fstat f (malloc m.session.world).2).1.1 = 0
    · have hargv : argvBuilt layout p arg m.ram = storeFields p.argv ((argvFields layout p arg).drop 3)
          (bytesAt (p.commandLine + BitVec.ofNat 32 (arg.length + 2 - 1)) [0]
            (bytesAt p.commandLine (bytes (arg ++ ['\x00']))
              (storeFields p.argv ((argvFields layout p arg).take 3)
                (bytesAt p.argv (List.replicate layout.size 0) m.ram)))) := by
        rw [bytesAt_argText htext]
        rfl
      rw [if_pos ⟨rfl, he⟩]
      simp only [loadFromFile, onRam, onWorld, onSession, os, bind_run, zoom_run, modify_run, ha, m₁,
        hargv]
      simp only [Bool.not_true, Bool.false_eq_true, if_false, if_true, bind_run, zoom_run, modify_run,
        ne_eq, he, not_true]
      rfl
    · simp [loadFromFile, onRam, onWorld, onSession, os, w, ha, he]

/-- The text is allocated, fstat is done and the reads of the file are. -/
structure Granted (content : Str) (w : World) : Prop where
  malloc : w.answers.mallocs.headD true = true
  fstat : w.answers.files ≠ []
  files : NoFileError (1 + reads content) w

theorem Granted.calls {content : Str} {w : World} (h : Granted content w) (f : Nat) :
    (Ftpii.malloc w).1 = true ∧ (Ftpii.fstat f (Ftpii.malloc w).2).1.1 = 0 ∧
      NoFileError (reads content) (Ftpii.fstat f (Ftpii.malloc w).2).2 := by
  obtain ⟨hm, hs, hno⟩ := h
  have hmalloc : (Ftpii.malloc w).1 = true ∧ (Ftpii.malloc w).2.answers.files = w.answers.files := by
    unfold Ftpii.malloc
    split
    · exact ⟨rfl, rfl⟩
    · rename_i a as heq
      rw [heq] at hm
      exact ⟨hm, rfl⟩
  obtain ⟨hok, hfiles⟩ := hmalloc
  obtain ⟨a, as, heq⟩ := List.exists_cons_of_ne_nil hs
  rw [NoFileError, heq, Nat.add_comm, List.take_succ_cons] at hno
  have hcode : ¬ a.code < 0 := Int.not_lt.mpr (hno a (by simp))
  have hrun : Ftpii.fstat f (Ftpii.malloc w).2 =
      ((0, { isDir := a.isDir, size := a.size, time := a.time }),
        (popFile (Ftpii.malloc w).2).2) := by
    simp [Ftpii.fstat, stat, popFile, hfiles, heq, hcode]
  refine ⟨hok, by rw [hrun], ?_⟩
  rw [hrun]
  intro b hb
  simp only [popFile, hfiles, heq] at hb
  exact hno b (List.mem_cons_of_mem a hb)

/-- The new program is started from the staged image and nothing else, and it is started where no
call fails. -/
theorem loadFromFile_starts {path content : Str} (hf : OnFile f path .rb content 0 [] m.session.world)
    (himage : content.length ≤ 2 ^ 32) (htext : arg.length + 2 ≤ 2 ^ 32) :
    let m' := (loadFromFile layout p f arg m).2
    let mem := bytesAt LOAD_ADDRESS (bytes content) (argvBuilt layout p arg m.ram)
    let r := loadDolImage layout.toArgvLayout LOAD_ADDRESS p.argv mem
    (m'.started = m.started ∨ m'.started = some r.1 ∧ m'.ram = r.2) ∧
      (Granted content m.session.world → m'.started = some r.1 ∧ m'.ram = r.2) := by
  intro m' mem r
  have hcases := @loadFromFile_cases layout p f arg m htext
  let w := m.session.world
  let v := (Ftpii.fstat f (malloc w).2).2
  have hlooked : Looked w v :=
    lookups_looked.trans (malloc_keeps lookups_looked w) (stat_keeps lookups_looked [] _)
  let m₁ : Machine :=
    { session := { m.session with world := v }
      ram := argvBuilt layout p arg m.ram
      started := m.started }
  have hf₁ : OnFile f path .rb content 0 [] m₁.session.world :=
    hf.same ⟨hlooked.streams, hlooked.disk⟩
  by_cases hcalls : (malloc w).1 = true ∧ (Ftpii.fstat f (malloc w).2).1.1 = 0
  · rw [if_pos hcalls] at hcases
    obtain ⟨n, hread, hall, hdone⟩ := @readFromFile_reads f path content LOAD_ADDRESS m₁ hf₁ himage
    let q := readFromFile LOAD_ADDRESS f m₁
    have hm' : m' = ((if q.1 then runDol layout.toArgvLayout LOAD_ADDRESS p.argv else pure ()) q.2).2 :=
      congrArg Prod.snd hcases
    cases hq : q.1 with
    | false =>
      rw [hq] at hm'
      have hsame : m'.started = m.started := by rw [hm']; exact hread.started
      refine ⟨.inl hsame, fun hg => ?_⟩
      have htrue := hdone (hg.calls f).2.2
      rw [hq] at htrue
      contradiction
    | true =>
      rw [hq] at hm'
      have hram : q.2.ram = mem := by
        rw [hread.ram, hall hq, List.take_length]
      have hr : r = loadDolImage layout.toArgvLayout LOAD_ADDRESS p.argv q.2.ram := by rw [hram]
      have hrun : m'.started = some r.1 ∧ m'.ram = r.2 := by
        rw [hm', hr]
        exact ⟨rfl, rfl⟩
      exact ⟨.inr hrun, fun _ => hrun⟩
  · rw [if_neg hcalls] at hcases
    exact ⟨.inl hcases, fun hg => absurd ⟨(hg.calls f).1, (hg.calls f).2.1⟩ hcalls⟩

end Starting

def fileWord (content : Str) (k : Nat) : BitVec 32 :=
  byte (content.getD k '\x00') ++ byte (content.getD (k + 1) '\x00') ++
    byte (content.getD (k + 2) '\x00') ++ byte (content.getD (k + 3) '\x00')

theorem Staged.header {layout : ArgvFields} {p : Placement} {arg content : Str} {before mem : Ram}
    (h : Staged layout p arg content before mem) {k : Nat} (hk : k + 4 ≤ content.length) :
    field mem LOAD_ADDRESS k = fileWord content k := by
  have hbyte : ∀ i < 4, mem (LOAD_ADDRESS + BitVec.ofNat 32 k + BitVec.ofNat 32 i) =
      byte (content.getD (k + i) '\x00') := by
    intro i hi
    have hin : k + i < content.length := by omega
    rw [BitVec.add_assoc, ← BitVec.ofNat_add, h.image _ hin, List.getD_eq_getElem _ _ hin]
  have h0 := hbyte 0 (by decide)
  have h1 := hbyte 1 (by decide)
  have h2 := hbyte 2 (by decide)
  have h3 := hbyte 3 (by decide)
  rw [BitVec.add_zero] at h0
  simp only [field, word, fileWord, h0, h1, h2, h3]
  rfl

/-- The new program where it runs: by the file's own header, each section has the bytes of its part
of the file, argv lies behind the entry point, and the text it points at is whole where no section
and no argv was put. -/
structure Running (layout : ArgvFields) (p : Placement) (arg content : Str) (mem ram : Ram) : Prop where
  header : ∀ k, k + 4 ≤ content.length → field mem LOAD_ADDRESS k = fileWord content k
  sections : ∀ s : Section, s.Loaded mem LOAD_ADDRESS → ∀ i < (s.size mem LOAD_ADDRESS).toNat,
    ∀ h : (s.pos mem LOAD_ADDRESS).toNat + i < content.length,
    let a := s.start mem LOAD_ADDRESS + BitVec.ofNat 32 i
    ¬ Overlaid layout.toArgvLayout mem LOAD_ADDRESS p.argv a →
      ram a = byte (content.get ⟨(s.pos mem LOAD_ADDRESS).toNat + i, h⟩)
  argv : p.argv ≠ 0 → ∀ v ∈ argvFields layout p arg,
    word ram (entryPoint mem LOAD_ADDRESS + 8 + BitVec.ofNat 32 v.1) = v.2
  text : ∀ i (h : i < (argText arg).length),
    let a := p.commandLine + BitVec.ofNat 32 i
    (∀ s : Section, s.Loaded mem LOAD_ADDRESS → ¬ s.Covers mem LOAD_ADDRESS a) →
      ¬ Overlaid layout.toArgvLayout mem LOAD_ADDRESS p.argv a → ram a = (argText arg)[i]

section Running

variable {layout : ArgvFields} {p : Placement} {arg content : Str} {before mem : Ram}

theorem Staged.running (h : Staged layout p arg content before mem)
    (hload : Loadable layout.toArgvLayout mem LOAD_ADDRESS p.argv) :
    Running layout p arg content mem
      (loadDolImage layout.toArgvLayout LOAD_ADDRESS p.argv mem).2 where
  header k hk := h.header hk
  sections s hs i hi hin := by
    intro a hnot
    have hfits := (s.size mem LOAD_ADDRESS).isLt
    have hcovers : s.Covers mem LOAD_ADDRESS a := within_offset hi (by omega)
    have hoff : LOAD_ADDRESS + s.pos mem LOAD_ADDRESS + (a - s.start mem LOAD_ADDRESS) =
        LOAD_ADDRESS + BitVec.ofNat 32 ((s.pos mem LOAD_ADDRESS).toNat + i) := by
      rw [add_sub_offset, BitVec.ofNat_add, BitVec.ofNat_toNat, BitVec.setWidth_eq, BitVec.add_assoc]
    rw [hload.apart_argv hnot, hload.image hs hcovers, hoff]
    exact h.image _ hin
  argv hne v hv := by
    have hmagic : hasMagic layout.toArgvLayout mem p.argv = true := by
      have hword := h.argv (layout.magicAt, layout.ARGV_MAGIC) (by simp [argvFields])
      exact Bool.and_eq_true_iff.mpr ⟨decide_eq_true hne, decide_eq_true hword⟩
    rw [word_copy (fun a ha => hload.overlaid ⟨hmagic, ha⟩) (argvFields_fit v hv) layout.size_le]
    exact h.argv v hv
  text i hi := by
    intro a hnone hnot
    rw [hload.apart_argv hnot, image_outside hnone]
    exact h.text i hi

/-- The program that is started is the file, whole in memory. Where argv and its text lie apart from
it, they are handed over with it, and it is what runs then if it can be loaded. -/
def Launched (layout : ArgvFields) (p : Placement) (arg content : Str) (m m' : Machine) : Prop :=
  ∃ mem, ImageAt content mem ∧
    m'.started = some (loadDolImage layout.toArgvLayout LOAD_ADDRESS p.argv mem).1 ∧
    m'.ram = (loadDolImage layout.toArgvLayout LOAD_ADDRESS p.argv mem).2 ∧
    (Clear layout p content arg → Staged layout p arg content m.ram mem ∧
      (Loadable layout.toArgvLayout mem LOAD_ADDRESS p.argv →
        Running layout p arg content mem m'.ram))

theorem launched {m m' : Machine} (himage : content.length ≤ 2 ^ 32) (htext : arg.length + 2 ≤ 2 ^ 32)
    (h : let mem := bytesAt LOAD_ADDRESS (bytes content) (argvBuilt layout p arg m.ram)
      let r := loadDolImage layout.toArgvLayout LOAD_ADDRESS p.argv mem
      m'.started = some r.1 ∧ m'.ram = r.2) : Launched layout p arg content m m' := by
  obtain ⟨hstarted, hram⟩ := h
  refine ⟨_, bytesAt_image himage _, hstarted, hram, fun hclear => ?_⟩
  have hstaged := bytesAt_staged hclear himage htext m.ram
  refine ⟨hstaged, fun hload => ?_⟩
  rw [hram]
  exact hstaged.running hload

end Running

section Loading

variable {layout : ArgvFields} {p : Placement} {path : Str} {m : Machine}

def inWorld (m : Machine) (w : World) : Machine :=
  { m with session := { m.session with world := w } }

theorem ftpSiteLoad_none
    (h : (vrtFopen m.session.client.cwd path .rb m.session.world).1 = none) :
    (ftpSiteLoad layout p path m).2.started = m.started := by
  let c := m.session.client
  have hclient : onSession client m = (c, m) := rfl
  have hopen : onWorld (vrtFopen c.cwd path .rb) m =
      (none, inWorld m (vrtFopen c.cwd path .rb m.session.world).2) := Prod.ext h rfl
  simp only [ftpSiteLoad, bind_run, hclient, hopen]
  rfl

/-- What is read and started is so by load_from_file: closing the file and the reply are calls on the
session. -/
theorem ftpSiteLoad_some {f : Nat}
    (h : (vrtFopen m.session.client.cwd path .rb m.session.world).1 = some f) :
    let c := m.session.client
    let m₁ := inWorld m (vrtFopen c.cwd path .rb m.session.world).2
    let m' := (ftpSiteLoad layout p path m).2
    m'.started = (loadRealPath layout p c.cwd path f m₁).2.started ∧
      m'.ram = (loadRealPath layout p c.cwd path f m₁).2.ram := by
  intro c m₁ m'
  have hclient : onSession client m = (c, m) := rfl
  have hopen : onWorld (vrtFopen c.cwd path .rb) m = (some f, m₁) := Prod.ext h rfl
  simp only [m', ftpSiteLoad, bind_run, hclient, hopen]
  exact ⟨rfl, rfl⟩

theorem loadRealPath_none {cwd : Str} {f : Nat}
    (h : (toRealPath cwd path m.session.world).1 = none) :
    loadRealPath layout p cwd path f m = ((), inWorld m (toRealPath cwd path m.session.world).2) := by
  have hq : onWorld (toRealPath cwd path) m =
      (none, inWorld m (toRealPath cwd path m.session.world).2) := Prod.ext h rfl
  simp only [loadRealPath, bind_run, hq, pure_run]

theorem loadRealPath_some {cwd real : Str} {f : Nat}
    (h : (toRealPath cwd path m.session.world).1 = some real) :
    loadRealPath layout p cwd path f m =
      loadFromFile layout p f real (inWorld m (toRealPath cwd path m.session.world).2) := by
  have hq : onWorld (toRealPath cwd path) m =
      (some real, inWorld m (toRealPath cwd path m.session.world).2) := Prod.ext h rfl
  simp only [loadRealPath, bind_run, hq]

/-- SITE LOAD starts nothing, or it runs load_from_file on the file that the path denotes. -/
theorem ftpSiteLoad_cases :
    let c := m.session.client
    let w := m.session.world
    let o := vrtFopen c.cwd path .rb w
    let m' := (ftpSiteLoad layout p path m).2
    (m'.started = m.started ∧
        ∀ f v real, o.1 = some f → toRealPath c.cwd path o.2 ≠ (some real, v)) ∨
      ∃ f v real content, denoted c.cwd path = some real ∧ w.disk real = some content ∧
        o.1 = some f ∧ toRealPath c.cwd path o.2 = (some real, v) ∧
        OnFile f real .rb content 0 [] v ∧
        m'.started = (loadFromFile layout p f real (inWorld m v)).2.started ∧
        m'.ram = (loadFromFile layout p f real (inWorld m v)).2.ram := by
  intro c w o m'
  rcases vrtFopen_cases c.cwd path .rb w with ⟨hn, -⟩ | ⟨real, w', hreal, hl, hrb, hrun⟩
  · refine .inl ⟨ftpSiteLoad_none hn, fun f v real ho => ?_⟩
    rw [show o.1 = none from hn] at ho
    contradiction
  · obtain ⟨content, hcontent⟩ := Option.isSome_iff_exists.mp (hrb rfl)
    have ho : o = (some w.nextStream, w'.opened (.file real .rb) w.disk) := hrun
    have hf : o.1 = some w.nextStream := congrArg Prod.fst ho
    let q := toRealPath c.cwd path o.2
    obtain ⟨hstarted, hram⟩ := @ftpSiteLoad_some layout p path m w.nextStream hf
    cases hq : q.1 with
    | none =>
      rw [@loadRealPath_none layout p path (inWorld m o.2) c.cwd w.nextStream hq] at hstarted
      refine .inl ⟨hstarted, fun f v real _ he => ?_⟩
      have hsome : q.1 = some real := congrArg Prod.fst he
      rw [hq] at hsome
      contradiction
    | some real' =>
      rw [@loadRealPath_some layout p path (inWorld m o.2) c.cwd real' w.nextStream hq] at hstarted hram
      have hdenoted : denoted c.cwd path = some real := toRealPath_denoted hreal
      obtain rfl : real = real' := Option.some.inj (hdenoted.symm.trans (toRealPath_denoted hq))
      have hlooked : Looked o.2 q.2 := toRealPath_keeps lookups_looked c.cwd path o.2
      have hstream : o.2.streams w.nextStream = some { target := .file real .rb } := by
        rw [ho]
        simp [World.opened, hl.nextStream]
      have hdisk : o.2.disk = w.disk := by rw [ho]; rfl
      refine .inr ⟨w.nextStream, q.2, real, content, hdenoted, hcontent, hf, Prod.ext hq rfl, ?_,
        hstarted, hram⟩
      exact ⟨⟨{ target := .file real .rb }, by rw [hlooked.streams, hstream], rfl, rfl, fun _ => rfl⟩,
        by rw [hlooked.disk, hdisk, hcontent]⟩

end Loading

theorem denoted_text {cwd path real : Str} (h : denoted cwd path = some real) :
    real.length + 2 ≤ 2 ^ 32 := by
  have hlen := denoted_length h
  have hmax : MAXPATHLEN + 1 ≤ 2 ^ 32 := by decide
  omega

/-- SITE LOAD does to the session what ftp_SITE_LOAD does. Where it starts anything, that is the file
the path denotes; and it does start that where no call fails. -/
theorem site_load_exact (layout : ArgvFields) (p : Placement) (path : Str) (m : Machine) :
    let c := m.session.client
    let w := m.session.world
    let m' := (ftpSiteLoad layout p path m).2
    m'.session = (Ftpii.ftpSiteLoad path m.session).2 ∧
      (m'.started = m.started ∨ ∃ real content, denoted c.cwd path = some real ∧
        w.disk real = some content ∧
        (content.length ≤ 2 ^ 32 → Launched layout p real content m m')) ∧
      ∀ f v real content, (vrtFopen c.cwd path .rb w).1 = some f →
        toRealPath c.cwd path (vrtFopen c.cwd path .rb w).2 = (some real, v) →
        w.disk real = some content → content.length ≤ 2 ^ 32 → Granted content v →
        Launched layout p real content m m' := by
  intro c w m'
  refine ⟨(congrArg Prod.snd (ftpSiteLoad_refines layout p path m)).symm, ?_, ?_⟩
  · rcases @ftpSiteLoad_cases layout p path m with
      ⟨hsame, -⟩ | ⟨f, v, real, content, hreal, hcontent, -, -, hf, hstarted, hram⟩
    · exact .inl hsame
    · by_cases himage : content.length ≤ 2 ^ 32
      · have htext := denoted_text hreal
        rcases (loadFromFile_starts (m := inWorld m v) hf himage htext).1 with hsame | ⟨hrun, hfinal⟩
        · exact .inl (hstarted.trans hsame)
        · refine .inr ⟨real, content, hreal, hcontent, fun _ => launched himage htext ?_⟩
          exact ⟨hstarted.trans hrun, hram.trans hfinal⟩
      · exact .inr ⟨real, content, hreal, hcontent, fun h => absurd h himage⟩
  · intro f v real content ho hq hcontent himage hgranted
    rcases @ftpSiteLoad_cases layout p path m with
      ⟨-, hnever⟩ | ⟨f', v', real', content', hreal, hcontent', -, hq', hf, hstarted, hram⟩
    · exact absurd hq (hnever f v real ho)
    · obtain ⟨rfl, rfl⟩ : real = real' ∧ v = v' := by
        have he := hq.symm.trans hq'
        exact ⟨Option.some.inj (congrArg Prod.fst he), congrArg Prod.snd he⟩
      obtain rfl : content = content' := Option.some.inj (hcontent.symm.trans hcontent')
      have htext := denoted_text hreal
      obtain ⟨hrun, hfinal⟩ := (loadFromFile_starts (m := inWorld m v) hf himage htext).2 hgranted
      exact launched himage htext ⟨hstarted.trans hrun, hram.trans hfinal⟩

def smallFile : Str :=
  ([0, 0, 1, 0] ++ List.replicate 68 0 ++ [0x80, 0, 0x31, 0] ++ List.replicate 68 0 ++ [0, 0, 0, 4] ++
    List.replicate 76 0 ++ [0x80, 0, 0x31, 0] ++ List.replicate 28 0 ++ [1, 2, 3, 4]).map Char.ofNat

def wiiFields : ArgvFields :=
  { wiiArgv with
    commandLineAt := 4
    lengthAt := 8
    argcAt := 12
    argvAt := 16
    endArgvAt := 20
    fits := by decide
    disjoint := by decide }

def spot : Placement where
  argv := 0x80ff0000
  commandLine := 0x80fe0000

def loading : Machine where
  session := { uploader with world := (filed smallFile).facing { files := [{}, { size := 260 }] } }
  ram := fun _ => 0
  started := none

theorem smallFile_length : smallFile.length = 260 := by decide +kernel

theorem loading_clear : Clear wiiFields spot smallFile "sd:/f".toList where
  image_argv := by
    rw [smallFile_length]
    exact (apart_of_le (by decide) (by decide)).symm
  image_text := by
    rw [smallFile_length]
    exact (apart_of_le (by decide) (by decide)).symm
  argv_text := (apart_of_le (by decide) (by decide)).symm

theorem loading_opens :
    let o := vrtFopen loading.session.client.cwd "/sd/f".toList .rb loading.session.world
    let q := toRealPath loading.session.client.cwd "/sd/f".toList o.2
    o.1 = some 0 ∧ q.1 = some "sd:/f".toList ∧ q.2.answers.mallocs = [] ∧
      q.2.answers.files = [{ size := 260 }] ∧
      denoted loading.session.client.cwd "/sd/f".toList = some "sd:/f".toList := by decide +kernel

theorem smallFile_header :
    (∀ s ∈ sections, fileWord smallFile s.sizeAt ≠ 0 ∧ 0x100 ≤ fileWord smallFile s.startAt →
      s = .text 0) ∧
    fileWord smallFile (Section.text 0).sizeAt = 4 ∧
    fileWord smallFile (Section.text 0).startAt = 0x80003100 ∧
    fileWord smallFile (Section.text 0).posAt = 0x100 ∧
    fileWord smallFile entryPointAt = 0x80003100 := by decide +kernel

theorem smallFile_loadable {mem : Ram}
    (h : Staged wiiFields spot "sd:/f".toList smallFile (fun _ => 0) mem) :
    Loadable wiiFields.toArgvLayout mem LOAD_ADDRESS spot.argv := by
  obtain ⟨honly, hsize, hstart, hpos, -⟩ := smallFile_header
  have hfield : ∀ k, k + 4 ≤ HEADER_SIZE → field mem LOAD_ADDRESS k = fileWord smallFile k :=
    fun k hk => h.header (by rw [smallFile_length]; exact hk.trans (by decide))
  have hloaded : ∀ s : Section, s.Loaded mem LOAD_ADDRESS → s = .text 0 := by
    intro s hs
    obtain ⟨hpos, hstart, hsize⟩ := s.at_le
    refine honly s (mem_sections s) ?_
    rw [← hfield _ hsize, ← hfield _ hstart]
    exact hs
  obtain ⟨hp, hs, hn⟩ := (Section.text 0).at_le
  have hcovers : ∀ a, (Section.text 0).Covers mem LOAD_ADDRESS a → Within a 0x80003100 4 := by
    intro a ha
    simp only [Section.Covers, Section.start, Section.size, hfield _ hs, hfield _ hn, hsize, hstart] at ha
    exact ha
  have hsource : LOAD_ADDRESS + (Section.text 0).pos mem LOAD_ADDRESS = 0x92000100 := by
    rw [Section.pos, hfield _ hp, hpos]
    decide
  have hcount : ((Section.text 0).size mem LOAD_ADDRESS).toNat = 4 := by
    rw [Section.size, hfield _ hn, hsize]
    decide
  refine ⟨fun s t hne hs ht => ?_, fun s hs a ha => ?_, fun s t hs ht a ha => ?_,
    fun _ s hs a ha => ?_⟩
  · exact absurd ((hloaded s hs).trans (hloaded t ht).symm) hne
  · obtain rfl := hloaded s hs
    exact apart_of_le (by decide) (by decide) a (hcovers a ha)
  · obtain rfl := hloaded s hs
    obtain rfl := hloaded t ht
    rw [hsource, hcount]
    exact apart_of_le (by decide) (by decide) a (hcovers a ha)
  · obtain rfl := hloaded s hs
    exact apart_of_le (by decide) (by decide) a (hcovers a ha)

theorem loading_granted :
    let o := vrtFopen loading.session.client.cwd "/sd/f".toList .rb loading.session.world
    Granted smallFile (toRealPath loading.session.client.cwd "/sd/f".toList o.2).2 := by
  obtain ⟨-, -, hmallocs, hfiles, -⟩ := loading_opens
  refine ⟨?_, ?_, ?_⟩
  · rw [hmallocs]
    rfl
  · rw [hfiles]
    exact List.cons_ne_nil _ _
  · intro a ha
    have hmem := List.mem_of_mem_take ha
    rw [hfiles, List.mem_singleton] at hmem
    rw [hmem]

theorem smallFile_running {mem ram : Ram}
    (h : Staged wiiFields spot "sd:/f".toList smallFile (fun _ => 0) mem)
    (hr : Running wiiFields spot "sd:/f".toList smallFile mem ram) : ram 0x80003102 = 3 := by
  obtain ⟨-, hsize, hstart, hpos, hentry⟩ := smallFile_header
  have hfield : ∀ k, k + 4 ≤ HEADER_SIZE → field mem LOAD_ADDRESS k = fileWord smallFile k :=
    fun k hk => h.header (by rw [smallFile_length]; exact hk.trans (by decide))
  obtain ⟨hp, hs, hn⟩ := (Section.text 0).at_le
  have hsize' : (Section.text 0).size mem LOAD_ADDRESS = 4 := (hfield _ hn).trans hsize
  have hstart' : (Section.text 0).start mem LOAD_ADDRESS = 0x80003100 := (hfield _ hs).trans hstart
  have hpos' : (Section.text 0).pos mem LOAD_ADDRESS = 0x100 := (hfield _ hp).trans hpos
  have hentry' : entryPoint mem LOAD_ADDRESS = 0x80003100 :=
    (hfield entryPointAt (by decide)).trans hentry
  have hloaded : (Section.text 0).Loaded mem LOAD_ADDRESS := by
    rw [Section.Loaded, hsize', hstart']
    decide
  have hin : ((Section.text 0).pos mem LOAD_ADDRESS).toNat + 2 < smallFile.length := by
    rw [hpos', smallFile_length]
    decide
  have haddr : (Section.text 0).start mem LOAD_ADDRESS + BitVec.ofNat 32 2 = 0x80003102 := by
    rw [hstart']
    decide
  have hbyte := hr.sections (.text 0) hloaded 2 (by rw [hsize']; decide) hin
  rw [haddr] at hbyte
  have hnot : ¬ Overlaid wiiFields.toArgvLayout mem LOAD_ADDRESS spot.argv 0x80003102 := by
    intro ho
    have hwithin := ho.2
    rw [hentry'] at hwithin
    exact absurd hwithin (by decide)
  have hread : byte (smallFile.getD 258 '\x00') = 3 := by decide +kernel
  have hindex : ((Section.text 0).pos mem LOAD_ADDRESS).toNat + 2 = 258 := by
    rw [hpos']
    rfl
  rw [hbyte hnot, ← hread, List.get_eq_getElem]
  simp only [hindex]
  rw [List.getD_eq_getElem _ _ (hindex ▸ hin)]

theorem site_load_exact_small :
    let m' := (ftpSiteLoad wiiFields spot "/sd/f".toList loading).2
    m'.started.isSome ∧ m'.ram 0x80003102 = 3 := by
  obtain ⟨hopen, hreal, -, -, hdenoted⟩ := loading_opens
  obtain ⟨-, -, hstarts⟩ := site_load_exact wiiFields spot "/sd/f".toList loading
  have hdisk : loading.session.world.disk "sd:/f".toList = some smallFile := rfl
  have hsmall : smallFile.length ≤ 2 ^ 32 := by
    rw [smallFile_length]
    decide
  obtain ⟨mem, -, hstarted, -, hclear⟩ := hstarts 0 _ _ smallFile hopen (Prod.ext hreal rfl) hdisk
    hsmall loading_granted
  obtain ⟨hstaged, hrunning⟩ := hclear loading_clear
  exact ⟨by rw [hstarted]; rfl, smallFile_running hstaged (hrunning (smallFile_loadable hstaged))⟩

end Loader

end Ftpii
