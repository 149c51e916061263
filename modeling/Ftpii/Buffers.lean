import Ftpii.ActivePort
import Ftpii.ReplyDiscipline
import Ftpii.Tokenizer
set_option autoImplicit false

/-! The texts ftp.c formats with sprintf, and the arrays it formats them into. -/

namespace Ftpii
open StateProgram Prog CString Scanf Words

/-! ## Digits -/

theorem length_decimal_le {n k : Nat} (hk : 0 < k) : (decimal n).length ≤ k ↔ n < 10 ^ k :=
  Nat.length_toDigits_le_iff (by decide) hk

theorem digitVal_lt {c : Char} {v : Nat} (h : digitVal 10 c = some v) : v < 10 := by
  simp only [digitVal, Option.ite_none_right_eq_some] at h
  obtain ⟨hlt, he⟩ := h
  exact Option.some.inj he ▸ hlt

theorem takeDigits_le (s : Str) :
    (takeDigits 10 s).1.length ≤ s.length ∧ ∀ v ∈ (takeDigits 10 s).1, v < 10 := by
  induction s with
  | nil => simp [takeDigits]
  | cons c cs ih =>
    simp only [takeDigits]
    split
    · simp
    · rename_i v hv
      simp only [List.length_cons, List.mem_cons, forall_eq_or_imp]
      exact ⟨by omega, digitVal_lt hv, ih.2⟩

theorem digitsValue_lt {vs : List Nat} (h : ∀ v ∈ vs, v < 10) : digitsValue 10 vs < 10 ^ vs.length := by
  induction vs using List.reverseRecOn with
  | nil => simp [digitsValue]
  | append_singleton vs v ih =>
    have hvs := ih fun w hw => h w (by simp [hw])
    have hv := h v (by simp)
    simp only [digitsValue, List.foldl_append, List.foldl_cons, List.foldl_nil] at hvs ⊢
    rw [List.length_append, List.length_singleton, Nat.pow_succ]
    omega

theorem scanU3_lt {s rest : Str} {n : Nat} (h : scanU3 s = some (n, rest)) : n < 2 ^ 32 := by
  simp only [scanU3] at h
  split at h
  · contradiction
  · rename_i vs _ _ hvs
    simp only [Option.some.injEq, Prod.mk.injEq] at h
    obtain ⟨rfl, -⟩ := h
    split
    · exact Nat.mod_lt _ (by decide)
    · have hdigits := takeDigits_le (((takeSign (s.dropWhile isSpace)).2).take
        (3 - ((s.dropWhile isSpace).length - (takeSign (s.dropWhile isSpace)).2.length)))
      rw [hvs] at hdigits
      have hlen : vs.length ≤ 3 := by
        have hle := hdigits.1
        simp only [List.length_take] at hle
        omega
      have hpow := Nat.pow_le_pow_right (by decide : 0 < 10) hlen
      have hlt : digitsValue 10 vs < 10 ^ vs.length := digitsValue_lt hdigits.2
      omega

theorem scanU3List_lt {k : Nat} {s : Str} {ns : List Nat} (h : scanU3List k s = some ns) :
    ∀ n ∈ ns, n < 2 ^ 32 := by
  induction k generalizing s ns with
  | zero =>
    obtain ⟨r, hr, rfl⟩ := Option.map_eq_some_iff.mp h
    intro n hn
    obtain rfl := List.mem_singleton.mp hn
    exact scanU3_lt hr
  | succ k ih =>
    simp only [scanU3List] at h
    split at h
    · rename_i n rest hn
      obtain ⟨ms, hms, rfl⟩ := Option.map_eq_some_iff.mp h
      simp only [List.mem_cons, forall_eq_or_imp]
      exact ⟨scanU3_lt hn, ih hms⟩
    · contradiction

/-! ## The formatted texts -/

def typeAccepts (params : Str) : Bool :=
  let numArgs := (split params ' ' 1).1
  let args := (split params ' ' 1).2
  numArgs ≠ 0 && ((caseEq "A".toList (args 0) && (args 1 = [] || caseEq "N".toList (args 1))) ||
    (caseEq "I".toList (args 0) && numArgs = 1))

/-- The uses of sprintf, with what they format. -/
inductive Sprintf where
  | type (params : Str)
  | pwd (cwd : Str)
  | mkd (abspath : Str)
  | size (st : Stat)
  | pasv (ip bound : Nat)
  | port (portspec : Str) (h1 h2 h3 h4 p1 p2 : Nat)
  | rest (offsetStr : Str) (offset : Int)
  | list (filename : Str) (st : Stat)
  | nlst (filename : Str)
  | reply (code : Nat) (msg : Str)

def Sprintf.array : Sprintf → Nat
  | .type _ => 15
  | .pwd _ => MAXPATHLEN + 24
  | .mkd _ => MAXPATHLEN + 21
  | .size _ => 12
  | .pasv _ _ => 49
  | .port .. => 44
  | .rest _ _ => FTP_BUFFER_SIZE
  | .list _ _ => MAXPATHLEN + 56 + CRLF.length + 1
  | .nlst _ => MAXPATHLEN + 2
  | .reply _ msg => 4 + msg.length + CRLF.length + 1

def typeText (representationType : Str) : Str :=
  "Type set to ".toList ++ representationType ++ ".".toList

def pwdText (cwd : Str) : Str := quoted cwd ++ " is current directory.".toList

def mkdText (abspath : Str) : Str := quoted abspath ++ " directory created.".toList

def addrText (h1 h2 h3 h4 : Nat) : Str :=
  decimal h1 ++ ['.'] ++ decimal h2 ++ ['.'] ++ decimal h3 ++ ['.'] ++ decimal h4

def restText (offset : Int) : Str :=
  "Restart position accepted (".toList ++ decimal offset.toNat ++ ").".toList

def Sprintf.text : Sprintf → Str
  | .type params => typeText ((split params ' ' 1).2 0)
  | .pwd cwd => pwdText cwd
  | .mkd abspath => mkdText abspath
  | .size st => decimal st.size
  | .pasv ip bound => passiveReply ip bound
  | .port _ h1 h2 h3 h4 _ _ => addrText h1 h2 h3 h4
  | .rest _ offset => restText offset
  | .list filename st => listLine filename st
  | .nlst filename => filename ++ CRLF
  | .reply code msg => replyText code msg

/-- What may be formatted there. -/
def Sprintf.Arises : Sprintf → Prop
  | .type params => typeAccepts params = true
  | .pwd cwd => cwd.length < MAXPATHLEN
  | .mkd abspath => abspath.length < MAXPATHLEN
  | .size st => st.size < 2 ^ 63
  | .pasv _ _ => True
  | .port portspec h1 h2 h3 h4 p1 p2 => Scans portspec h1 h2 h3 h4 p1 p2
  | .rest offsetStr offset => scanLli offsetStr = some offset ∧ 0 ≤ offset
  | .list filename st => filename.length < MAXPATHLEN ∧ st.time.length = 12 ∧ st.size < 2 ^ 63
  | .nlst filename => filename.length < MAXPATHLEN
  | .reply code msg => ∃ s : Server, Reachable (fun _ _ => True) s ∧
      ∃ k r, .reply code msg r ∈ s.world.hist k

def Sprintf.Fits (f : Sprintf) : Prop := f.text.length + 1 ≤ f.array

/-- A file size has no more digits than the array has room for. -/
def Sprintf.Narrow : Sprintf → Prop
  | .size st => st.size < 10 ^ 11
  | .list filename st => st.size < 10 ^ (1035 - filename.length)
  | _ => True

/-- The handler's reply has the text; the texts of the other uses are the functions that the handlers
call themselves. -/
def Sprintf.Written (f : Sprintf) : Prop :=
  match f with
  | .type params => ∀ s, ∃ t, ftpType params s = writeReply 200 f.text t
  | .pwd cwd => ∀ arg (s : Session), s.client.cwd = cwd → ftpPwd arg s = writeReply 257 f.text s
  | .mkd abspath => ∀ path (s : Session), path ≠ [] →
      let made := vrtMkdir s.client.cwd path s.world
      let entered := vrtChdir s.client.cwd path made.2
      made.1 = 0 → entered.1.2 = abspath →
        ftpMkd path s = writeReply 257 f.text { s with world := entered.2 }
  | .size st => ∀ path (s : Session), (vrtStat s.client.cwd path s.world).1 = (0, st) →
      ∃ t, ftpSize path s = writeReply 213 f.text t
  | .rest offsetStr offset => ∀ s : Session, ftpRest offsetStr s = writeReply 350 f.text
      { s with client := { s.client with restartMarker := offset } }
  | _ => True

/-! ### Where the handlers format them -/

theorem ftpType_formats (params : Str) (s : Session) :
    ftpType params s = if typeAccepts params
      then writeReply 200 (Sprintf.type params).text
        { s with client := { s.client with
          representationType := ((split params ' ' 1).2 0).headD '\x00' } }
      else syntaxError s := by
  let accepted : Ses Int := do
    update fun c => { c with representationType := ((split params ' ' 1).2 0).headD '\x00' }
    writeReply 200 (typeText ((split params ' ' 1).2 0))
  let known := (caseEq "A".toList ((split params ' ' 1).2 0) &&
      ((split params ' ' 1).2 1 = [] || caseEq "N".toList ((split params ' ' 1).2 1))) ||
    (caseEq "I".toList ((split params ' ' 1).2 0) && (split params ' ' 1).1 = 1)
  have hrun : ftpType params = if (split params ' ' 1).1 = 0 then syntaxError
      else if known then accepted else syntaxError := rfl
  have haccepts : typeAccepts params = (decide ((split params ' ' 1).1 ≠ 0) && known) := rfl
  rw [hrun, haccepts]
  by_cases h0 : (split params ' ' 1).1 = 0
  · simp [h0]
  · cases hk : known with
    | true =>
      simp only [if_true, h0, ne_eq, not_false_eq_true, decide_true, Bool.true_and]
      rfl
    | false => simp [h0]

theorem ftpPwd_formats (rest : Str) (s : Session) :
    ftpPwd rest s = writeReply 257 (Sprintf.pwd s.client.cwd).text s := by
  rw [ftpPwd_run, Sprintf.text, pwdText]

theorem ftpMkd_formats {path : Str} (h : path ≠ []) (s : Session) :
    let made := vrtMkdir s.client.cwd path s.world
    let entered := vrtChdir s.client.cwd path made.2
    ftpMkd path s = if made.1 = 0
      then writeReply 257 (Sprintf.mkd entered.1.2).text { s with world := entered.2 }
      else replyErrno { s with world := made.2 } := by
  simp +instances only [ftpMkd, if_neg h, bind_run, client_run, os_run, ite_run]
  rfl

theorem ftpSize_formats (path : Str) (s : Session) :
    let r := vrtStat s.client.cwd path s.world
    ftpSize path s = if r.1.1 = 0
      then writeReply 213 (Sprintf.size r.1.2).text { s with world := r.2 }
      else replyErrno { s with world := r.2 } := by
  simp +instances only [ftpSize, bind_run, client_run, os_run, ite_run]
  rfl

theorem ftpRest_formats {offsetStr : Str} {offset : Int} (h : scanLli offsetStr = some offset)
    (h0 : 0 ≤ offset) (s : Session) :
    ftpRest offsetStr s = writeReply 350 (Sprintf.rest offsetStr offset).text
      { s with client := { s.client with restartMarker := offset } } := by
  simp +instances only [ftpRest, h, ite_run, if_neg (not_lt.mpr h0), bind_run, update_run]
  rfl

theorem written {f : Sprintf} (h : f.Arises) : f.Written := by
  cases f with
  | type params =>
    intro s
    have haccepts : typeAccepts params = true := h
    rw [ftpType_formats, if_pos haccepts]
    exact ⟨_, rfl⟩
  | pwd cwd =>
    rintro arg s rfl
    exact ftpPwd_formats arg s
  | mkd abspath =>
    intro path s hp made entered hmade habspath
    rw [ftpMkd_formats hp, if_pos hmade, habspath]
  | size st =>
    intro path s hst
    rw [ftpSize_formats, hst, if_pos rfl]
    exact ⟨_, rfl⟩
  | rest offsetStr offset => exact fun s => ftpRest_formats h.1 h.2 s
  | _ => trivial

/-! ### How long they are -/

theorem length_decimal_three {n : Nat} (h : n < 1000) : (decimal n).length ≤ 3 :=
  (length_decimal_le (by decide)).mpr h

theorem length_typeText (representationType : Str) :
    (typeText representationType).length = representationType.length + 13 := by
  have h1 : "Type set to ".toList.length = 12 := rfl
  have h2 : ".".toList.length = 1 := rfl
  have he : typeText representationType = "Type set to ".toList ++ representationType ++
      ".".toList := rfl
  rw [he, List.length_append, List.length_append, h1, h2]
  omega

theorem length_restText (offset : Int) :
    (restText offset).length = (decimal offset.toNat).length + 29 := by
  have h1 : "Restart position accepted (".toList.length = 27 := rfl
  have h2 : ").".toList.length = 2 := rfl
  have he : restText offset = "Restart position accepted (".toList ++ decimal offset.toNat ++
      ").".toList := rfl
  rw [he, List.length_append, List.length_append, h1, h2]
  omega

theorem fits_type {params : Str} (h : typeAccepts params = true) : (Sprintf.type params).Fits := by
  have hone : ((split params ' ' 1).2 0).length = 1 := by
    simp only [typeAccepts, Bool.and_eq_true, Bool.or_eq_true, caseEq_iff] at h
    rcases h.2 with ⟨ha, -⟩ | ⟨hi, -⟩
    · simpa using (congrArg List.length ha).symm
    · simpa using (congrArg List.length hi).symm
  simp only [Sprintf.Fits, Sprintf.text, Sprintf.array, length_typeText, hone]
  omega

theorem length_quoted (s : Str) : (quoted s).length = s.length + 2 := by
  simp [quoted]

theorem fits_pwd {cwd : Str} (h : cwd.length < MAXPATHLEN) : (Sprintf.pwd cwd).Fits := by
  have h1 : " is current directory.".toList.length = 22 := rfl
  simp only [Sprintf.Fits, Sprintf.text, Sprintf.array, pwdText, List.length_append, length_quoted, h1]
  omega

theorem fits_mkd {abspath : Str} (h : abspath.length < MAXPATHLEN) : (Sprintf.mkd abspath).Fits := by
  have h1 : " directory created.".toList.length = 19 := rfl
  simp only [Sprintf.Fits, Sprintf.text, Sprintf.array, mkdText, List.length_append, length_quoted, h1]
  omega

theorem fits_size (st : Stat) : (Sprintf.size st).Fits ↔ st.size < 10 ^ 11 := by
  rw [← length_decimal_le (by decide)]
  simp only [Sprintf.Fits, Sprintf.text, Sprintf.array]
  omega

theorem fits_pasv (ip bound : Nat) : (Sprintf.pasv ip bound).Fits := by
  have hthree : ∀ n, (decimal (n % 256)).length ≤ 3 := fun n => length_decimal_three (by omega)
  have h1 := hthree (ip / 2 ^ 24)
  have h2 := hthree (ip / 2 ^ 16)
  have h3 := hthree (ip / 2 ^ 8)
  have h4 := hthree ip
  have h5 := hthree (bound / 256)
  have h6 := hthree bound
  have hopen : "Entering Passive Mode (".toList.length = 23 := rfl
  have hclose : ").".toList.length = 2 := rfl
  simp only [Sprintf.Fits, Sprintf.text, Sprintf.array, passiveReply_eq, commas,
    List.length_append, List.length_singleton, hopen, hclose]
  omega

theorem fits_port {portspec : Str} {h1 h2 h3 h4 p1 p2 : Nat}
    (h : Scans portspec h1 h2 h3 h4 p1 p2) : (Sprintf.port portspec h1 h2 h3 h4 p1 p2).Fits := by
  have hten : ∀ n ∈ [h1, h2, h3, h4, p1, p2], (decimal n).length ≤ 10 := fun n hn =>
    (length_decimal_le (by decide)).mpr (lt_trans (scanU3List_lt h.scan n hn) (by decide))
  simp only [List.forall_mem_cons] at hten
  obtain ⟨a1, a2, a3, a4, -⟩ := hten
  simp only [Sprintf.Fits, Sprintf.text, Sprintf.array, addrText, List.length_append,
    List.length_singleton]
  omega

theorem scanLli_le {s : Str} {k : Int} (h : scanLli s = some k) : k ≤ maxLongLong := by
  simp only [scanLli] at h
  split at h
  · contradiction
  · obtain rfl := Option.some.inj h
    split
    · simp only [maxLongLong, minLongLong]
      omega
    · exact min_le_left _ _

theorem fits_rest {offsetStr : Str} {offset : Int} (h : scanLli offsetStr = some offset)
    (h0 : 0 ≤ offset) : (Sprintf.rest offsetStr offset).Fits := by
  have hle := scanLli_le h
  have hdigits : (decimal offset.toNat).length ≤ 19 := by
    rw [maxLongLong] at hle
    exact (length_decimal_le (by decide)).mpr (by omega)
  simp only [Sprintf.Fits, Sprintf.text, Sprintf.array, length_restText, FTP_BUFFER_SIZE]
  omega

theorem fits_list {filename : Str} {st : Stat} (hn : filename.length < MAXPATHLEN)
    (ht : st.time.length = 12) :
    (Sprintf.list filename st).Fits ↔ st.size < 10 ^ (1035 - filename.length) := by
  have hrwx : "rwxr-xr-x    1 0        0     ".toList.length = 30 := rfl
  have hcrlf : CRLF.length = 2 := rfl
  rw [MAXPATHLEN] at hn
  rw [← length_decimal_le (by omega)]
  simp only [Sprintf.Fits, Sprintf.text, Sprintf.array, listLine, padLeft, List.length_append,
    List.length_singleton, List.length_replicate, hrwx, hcrlf, ht, MAXPATHLEN]
  omega

theorem fits_nlst {filename : Str} (h : filename.length < MAXPATHLEN) :
    (Sprintf.nlst filename).Fits := by
  have hcrlf : CRLF.length = 2 := rfl
  simp only [Sprintf.Fits, Sprintf.text, Sprintf.array, List.length_append, hcrlf]
  omega

theorem fits_reply {code : Nat} (h : code < 1000) (msg : Str) : (Sprintf.reply code msg).Fits := by
  have hcode := length_decimal_three h
  have hcrlf : CRLF.length = 2 := rfl
  simp only [Sprintf.Fits, Sprintf.text, Sprintf.array, replyText, List.length_append,
    List.length_singleton, hcrlf]
  omega

def Coded (h : List Event) : Prop := ∀ code text r, .reply code text r ∈ h → code < 1000

theorem coded_append {h h' : List Event} (hh : Coded h) (hh' : Coded h') : Coded (h ++ h') :=
  fun code text r hm => (List.mem_append.mp hm).elim (hh code text r) (hh' code text r)

theorem coded_reply {code : Nat} (hc : code < 1000) (text : Str) (r : Int) :
    Coded [.reply code text r] := by
  intro code' text' r' hm
  obtain ⟨rfl, -⟩ : code' = code ∧ text' = text ∧ r' = r := by simpa using hm
  exact hc

theorem coded_other {e : Event} (he : ∀ code text r, e ≠ .reply code text r) : Coded [e] := by
  intro code text r hm
  exact absurd (List.mem_singleton.mp hm).symm (he code text r)

theorem Answer.coded {clean : Prop} {es : List Event} {b : Bool} {r : Int}
    (h : Answer clean es b r) : Coded es := by
  have hstart := coded_reply (by decide : 150 < 1000) "Transferring data.".toList
  cases h with
  | final code text q _ _ hhi _ => exact coded_reply hhi text q
  | refused => exact hstart r
  | unprepared q e q' =>
    exact coded_append (hstart q) (coded_append (h := [.noDataSocket e]) (coded_other (by simp))
      (coded_reply (by decide) _ r))
  | pending q => exact hstart q

theorem coded_framing {h : List Event} {e : Event} (hh : Coded h) (he : e.IsFraming) :
    Coded (h ++ [e]) := by
  refine coded_append hh (coded_other fun code text r heq => ?_)
  simp [heq, Event.IsFraming] at he

theorem coded_conversation (texts : Int → Str) :
    Conversation texts (fun _ h => Coded h) Coded where
  start _ := by simp
  greeting r := coded_reply (by decide) _ r
  arrive _ _ _ r := coded_reply (by decide) _ r
  weaken _ _ hj := hj
  note _ _ _ he hj := coded_framing hj he
  leaving _ _ he hk := coded_framing hk he
  buffer _ _ _ _ hj := hj
  command s l _ hj hcb hl _ := by
    obtain ⟨-, ⟨es, he, ha⟩, -⟩ := @processCommand_answered False l hl False.elim s hcb False.elim
    have hall : Coded (processCommand l s).2.story := by
      rw [he, story_emitted]
      exact coded_append (coded_append hj (coded_other (by simp))) ha.coded
    exact ⟨hall, fun _ => hall⟩
  data s _ hj _ := by
    rcases @dataEvents_outcome False s with
      ⟨-, hs⟩ | ⟨code, text, r, hcode, -, hstory, -⟩
    · have hsame : (dataEvents s).2.story = s.story := by
        rw [Session.story, Session.story, hs.hist, hs.conn]
      rw [hsame]
      exact ⟨hj, fun _ => hj⟩
    · rw [hstory]
      have hlt : code < 1000 := by omega
      have hall := coded_append hj (coded_reply hlt text r)
      exact ⟨hall, fun _ => hall⟩
  dismiss _ _ r hj := coded_append hj (coded_reply (by decide) _ r)

/-- Every text is what the code writes, and fits its array except for the sizes that SIZE and LIST
have no room for. -/
theorem sprintf_fits_iff {f : Sprintf} (h : f.Arises) : f.Written ∧ (f.Fits ↔ f.Narrow) := by
  refine ⟨written h, ?_⟩
  cases f with
  | type => exact iff_of_true (fits_type h) trivial
  | pwd => exact iff_of_true (fits_pwd h) trivial
  | mkd => exact iff_of_true (fits_mkd h) trivial
  | size st => exact fits_size st
  | pasv ip bound => exact iff_of_true (fits_pasv ip bound) trivial
  | port => exact iff_of_true (fits_port h) trivial
  | rest => exact iff_of_true (fits_rest h.1 h.2) trivial
  | list => exact fits_list h.1 h.2.1
  | nlst => exact iff_of_true (fits_nlst h) trivial
  | reply code msg =>
    obtain ⟨s, hs, k, r, hr⟩ := h
    have hcoded := (Conversation.reach coded_conversation hs).events k
    exact iff_of_true (fits_reply (hcoded code msg r hr) msg) trivial

theorem sprintf_fits_full_directory :
    (Sprintf.pwd (List.replicate 1023 'b')).Fits := by
  have harises : (Sprintf.pwd (List.replicate 1023 'b')).Arises := by
    rw [Sprintf.Arises, List.length_replicate]
    decide
  exact (sprintf_fits_iff harises).2.mpr trivial

/-- The size of a file of 100 GB is written past the end of size_buf, and a listed name of 1023
characters with a size of 10^12 past the end of line. -/
theorem sprintf_overflows :
    (Sprintf.size { size := 10 ^ 11 }).Arises ∧ ¬ (Sprintf.size { size := 10 ^ 11 }).Fits ∧
      ∃ filename st, (Sprintf.list filename st).Arises ∧ ¬ (Sprintf.list filename st).Fits := by
  have hname : (List.replicate 1023 'b').length < MAXPATHLEN := by
    rw [List.length_replicate]
    decide
  refine ⟨by unfold Sprintf.Arises; decide, by rw [fits_size]; decide,
    List.replicate 1023 'b', { size := 10 ^ 12, time := "Jan 01  1970".toList },
    ⟨hname, rfl, by decide⟩, ?_⟩
  rw [fits_list hname rfl, List.length_replicate]
  decide

end Ftpii
