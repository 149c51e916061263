import Ftpii.Platform
set_option autoImplicit false

/-!
The C library's file calls over an in-memory disk. fwrite may keep bytes in the
stream; a failing fclose may lose them.
-/

namespace Ftpii
open StateProgram

/-- `struct stat`: the fields the program reads, with the formatted mtime. -/
structure Stat where
  isDir : Bool := false
  size : Nat := 0
  time : Str := []
  deriving DecidableEq, Repr

def fileAnswer : Os FileAnswer := do
  let a ← popFile
  pure (a.getD {})

/-- Bytes at an offset; a gap before it reads as zeros. -/
def writeAt (content : Str) (pos : Nat) (data : Str) : Str :=
  if data = [] then content
  else (content ++ List.replicate (pos - content.length) '\x00').take pos ++ data ++
    content.drop (pos + data.length)

def World.setDisk (w : World) (path : Str) (content : Option Str) : World :=
  { w with disk := Function.update w.disk path content }

def openStream (t : Target) : Os Nat := fun w =>
  (w.nextStream, { w with nextStream := w.nextStream + 1 }.setStream w.nextStream { target := t })

def fopen (path : Str) (mode : Mode) : Os (Option Nat) := do
  let a ← fileAnswer
  let w ← Prog.get
  if a.code < 0 then do
    setErrno a.errno
    pure none
  else match mode, w.disk path with
    | .rb, none => do
      setErrno ENOENT
      pure none
    | .rb, some _ => some <$> openStream (.file path .rb)
    | .wb, _ => do
      Prog.modify fun w => w.setDisk path (some [])
      some <$> openStream (.file path .wb)
    | .ab, none => do
      Prog.modify fun w => w.setDisk path (some [])
      some <$> openStream (.file path .ab)
    | .ab, some _ => some <$> openStream (.file path .ab)

def World.flush (w : World) (h n : Nat) : World :=
  match w.streams h with
  | none => w
  | some st =>
    match st.target with
    | .file path mode =>
      match w.disk path with
      | none => w
      | some content =>
        let data := st.pending.take n
        let pos := if mode = .ab then content.length else st.pos
        (w.setDisk path (some (writeAt content pos data))).setStream h
          { st with pos := pos + data.length, pending := st.pending.drop n }
    | _ => w

def lseek (h : Nat) (offset : Nat) : Os Int := do
  let a ← fileAnswer
  if a.code < 0 then do
    setErrno a.errno
    pure (-1)
  else do
    Prog.modify fun w => match w.streams h with
      | none => w
      | some st => w.setStream h { st with pos := offset, start := offset, eof := false }
    pure offset

/-- A short count only at end of file or on error. -/
def fread (h len : Nat) : Os Str := do
  let a ← fileAnswer
  let w ← Prog.get
  match w.streams h with
  | none => pure []
  | some st =>
    match st.target with
    | .file path _ =>
      let rest := ((w.disk path).getD []).drop st.pos
      let data := if a.code < 0 then rest.take (min a.count len) else rest.take len
      let eof := 0 ≤ a.code ∧ data.length < len
      Prog.modify fun w => w.setStream h { st with pos := st.pos + data.length, eof := eof }
      pure data
    | _ => pure []

def feof (h : Nat) : Os Bool := do
  let w ← Prog.get
  pure (((w.streams h).map Stream.eof).getD false)

/-- The stream accepts all of the bytes, or on error fewer; some may go on to the file. -/
def fwrite (h : Nat) (buf : Str) : Os Nat := do
  let a ← fileAnswer
  let taken := if a.code < 0 then buf.take (min a.count (buf.length - 1)) else buf
  Prog.modify fun w => match w.streams h with
    | none => w
    | some st => (w.setStream h { st with pending := st.pending ++ taken }).flush h a.flushed
  pure taken.length

def World.closeStream (w : World) (h : Nat) : World :=
  match w.streams h with
  | none => w
  | some st => w.setStream h { st with closes := st.closes + 1, pending := [] }

/-- Flush what is buffered, all of it unless an error is reported, and close. -/
def fclose (h : Nat) : Os Int := do
  let a ← fileAnswer
  Prog.modify fun w => match w.streams h with
    | none => w
    | some st =>
      (w.flush h (if a.code < 0 then a.flushed else st.pending.length)).closeStream h
  pure (if a.code < 0 then -1 else 0)

def stat (_path : Str) : Os (Int × Stat) := do
  match ← popFile with
  | none => do
    setErrno ENOENT
    pure (-1, {})
  | some a =>
    if a.code < 0 then do
      setErrno a.errno
      pure (-1, {})
    else pure (0, { isDir := a.isDir, size := a.size, time := a.time })

def fstat (_f : Nat) : Os (Int × Stat) := stat []

def fileCall (effect : World → World) : Os Int := do
  let a ← fileAnswer
  if a.code < 0 then do
    setErrno a.errno
    pure (-1)
  else do
    Prog.modify effect
    pure 0

def unlink (path : Str) : Os Int := fileCall fun w => w.setDisk path none

def mkdir (_path : Str) : Os Int := fileCall id

def rename (source target : Str) : Os Int := do
  Prog.modify fun w => w.record (.rename source target)
  fileCall fun w =>
    if source = target then w else (w.setDisk target (w.disk source)).setDisk source none

def diropen (path : Str) : Os (Option Nat) := do
  let a ← fileAnswer
  if a.code < 0 then do
    setErrno a.errno
    pure none
  else some <$> openStream (.dir path)

def dirnext (_h : Nat) : Os (Int × Str × Stat) := do
  match ← popFile with
  | none => pure (-1, [], {})
  | some a =>
    if a.code < 0 then pure (-1, [], {})
    else pure (0, a.data, { isDir := a.isDir, size := a.size, time := a.time })

def dirclose (h : Nat) : Os Int := do
  Prog.modify fun w => w.closeStream h
  pure 0

end Ftpii
