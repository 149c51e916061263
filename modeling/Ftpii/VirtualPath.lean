import Ftpii.Partitions
set_option autoImplicit false

/-! vrt.c: virtual paths, their normalisation, and the calls made through them. -/

namespace Ftpii
open StateProgram CString

def MAXPATHLEN : Nat := 1024

inductive PathState where
  | start | slash | dot | dotdot
  deriving DecidableEq, Repr

/-- The output buffer of virtual_abspath with its remembered slash. -/
structure Norm where
  normalisedPath : Str := []
  currDir : Nat := 0
  state : PathState := .start
  deriving DecidableEq, Repr

/-- The switch over the state; no token is the terminating NUL. -/
def Norm.switch (n : Norm) (token : Option Char) : Norm :=
  match n.state with
  | .start =>
    if token = some '/' then
      { normalisedPath := n.normalisedPath ++ ['/'], currDir := n.normalisedPath.length,
        state := .slash }
    else n
  | .slash =>
    if token = some '.' then { n with state := .dot }
    else if token ≠ some '/' then { n with state := .start }
    else n
  | .dot =>
    if token = some '/' ∨ token = none then
      { n with state := .slash, normalisedPath := n.normalisedPath.take (n.currDir + 1) }
    else if token = some '.' then { n with state := .dotdot }
    else { n with state := .start }
  | .dotdot =>
    if token = some '/' ∨ token = none then
      let cut := n.normalisedPath.take n.currDir
      match strrchr '/' cut with
      | some prevDir =>
        { normalisedPath := cut.take (prevDir + 1), currDir := prevDir, state := .slash }
      | none => { normalisedPath := cut ++ ['/'], currDir := n.currDir, state := .slash }
    else { n with state := .start }

def Norm.step (n : Norm) (token : Option Char) : Norm :=
  let n := n.switch token
  match token with
  | none => n
  | some c =>
    if n.state = .start ∨ c ≠ '/' then { n with normalisedPath := n.normalisedPath ++ [c] } else n

def dropSlashes : Str → Str
  | '/' :: c :: cs => dropSlashes (c :: cs)
  | s => s

/-- Remove trailing slashes but never the first character. -/
def stripSlashes (s : Str) : Str := (dropSlashes s.reverse).reverse

def normalise (path : Str) : Str :=
  stripSlashes ((path.foldl (fun (n : Norm) c => n.step (some c)) {}).step none).normalisedPath

def normaliseAlloc (path : Str) : Os (Option Str) := do
  let ok ← malloc
  pure (if ok then some (normalise path) else none)

def virtualAbspath (virtualCwd virtualPath : Str) : Os (Option Str) := do
  if virtualPath.head? = some '/' then normaliseAlloc virtualPath
  else if MAXPATHLEN < virtualCwd.length + virtualPath.length + 1 then pure none
  else do
    let ok ← malloc
    if ok then normaliseAlloc (virtualCwd ++ virtualPath) else pure none

def matchesAlias (virtualPath : Str) (p : Partition) : Bool :=
  caseEq p.alias_ virtualPath ||
    (caseEq p.alias_ (virtualPath.take p.alias_.length) &&
      virtualPath[p.alias_.length]? == some '/')

def findPartition (virtualPath : Str) : Option Partition :=
  VIRTUAL_PARTITIONS.find? (matchesAlias virtualPath)

/-- What follows the alias, without its leading slash. -/
def restOf (virtualPath : Str) (p : Partition) : Str :=
  let rest := virtualPath.drop p.alias_.length
  if rest.head? = some '/' then rest.drop 1 else rest

def toRealPath (virtualCwd virtualPath : Str) : Os (Option Str) := do
  setErrno ENOENT
  if ':' ∈ virtualPath then pure none
  else do
    match ← virtualAbspath virtualCwd virtualPath with
    | none => pure none
    | some abspath =>
      if abspath = ['/'] then pure (some [])
      else match findPartition abspath with
        | none => do
          setErrno ENODEV
          pure none
        | some p =>
          let rest := restOf abspath p
          if MAXPATHLEN < p.prefix_.length + rest.length + 1 then pure none
          else do
            let ok ← malloc
            pure (if ok then some (p.prefix_ ++ rest) else none)

/-- Call f on the real path, unless there is none or it is the virtual root. -/
def withVirtualPath {α : Type} (virtualCwd : Str) (f : Str → Os α) (virtualPath : Str)
    (failed : α) : Os α := do
  match ← toRealPath virtualCwd virtualPath with
  | none => pure failed
  | some path => if path = [] then pure failed else f path

def vrtFopen (cwd path : Str) (mode : Mode) : Os (Option Nat) :=
  withVirtualPath cwd (fopen · mode) path none

def vrtStat (cwd path : Str) : Os (Int × Stat) := do
  match ← toRealPath cwd path with
  | none => pure (-1, {})
  | some realPath =>
    if realPath = [] then pure (0, { isDir := true, size := 31337 })
    else withVirtualPath cwd stat path (-1, {})

/-- The result, and the directory the caller's buffer then holds. -/
def vrtChdir (cwd path : Str) : Os (Int × Str) := do
  let (result, st) ← vrtStat cwd path
  if result ≠ 0 then pure (-1, cwd)
  else if !st.isDir then do
    setErrno ENOTDIR
    pure (-1, cwd)
  else do
    match ← virtualAbspath cwd path with
    | none => do
      setErrno ENOMEM
      pure (-1, cwd)
    | some abspath =>
      pure (0, if abspath.length ≤ 1 then abspath else abspath ++ ['/'])

def vrtUnlink (cwd path : Str) : Os Int := withVirtualPath cwd unlink path (-1)

def vrtMkdir (cwd path : Str) : Os Int := withVirtualPath cwd mkdir path (-1)

def vrtRename (cwd fromPath toPath : Str) : Os Int := do
  match ← toRealPath cwd toPath with
  | none => pure (-1)
  | some realToPath =>
    if realToPath = [] then pure (-1)
    else withVirtualPath cwd (rename · realToPath) fromPath (-1)

def vrtDiropen (cwd path : Str) : Os (Option Nat) := do
  match ← toRealPath cwd path with
  | none => pure none
  | some realPath =>
    if realPath = [] then do
      let ok ← malloc
      if ok then some <$> openStream (.root 0) else pure none
    else withVirtualPath cwd diropen path none

def nextMounted (d : Devices) (dirStruct : Nat) : Option (Nat × Partition) :=
  ((VIRTUAL_PARTITIONS.zipIdx.drop dirStruct).find? fun e => d.mounted e.1).map Prod.swap

def vrtDirnext (iter : Nat) : Os (Int × Str × Stat) := do
  let w ← Prog.get
  match w.streams iter with
  | some st =>
    match st.target with
    | .root dirStruct =>
      match nextMounted w.devices dirStruct with
      | some (i, p) => do
        Prog.modify fun w => w.setStream iter { st with target := .root (i + 1) }
        pure (0, p.alias_.drop 1, { isDir := true, size := 0 })
      | none => do
        Prog.modify fun w => w.setStream iter
          { st with target := .root (max dirStruct VIRTUAL_PARTITIONS.length) }
        pure (-1, [], {})
    | _ => dirnext iter
  | none => dirnext iter

def vrtDirclose (iter : Nat) : Os Int := dirclose iter

end Ftpii
