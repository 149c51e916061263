import Ftpii.ControlStream
import Ftpii.Replying
set_option autoImplicit false

/-! What a connection's replies look like over whole runs: their order and their lines. -/

namespace Ftpii
open StateProgram Prog Scanf

/-! ## The order of replies -/

/-- What is said on a connection: lines executed and replies sent. -/
inductive Said where
  | line (text : Str)
  | reply (code : Nat)
  deriving DecidableEq, Repr

@[simp] def Event.said : Event → Option Said
  | .command text _ => some (.line text)
  | .reply code _ _ => some (.reply code)
  | _ => none

def dialogue (h : List Event) : List Said := h.filterMap Event.said

@[simp] theorem dialogue_nil : dialogue [] = [] := rfl

@[simp] theorem dialogue_append (h h' : List Event) :
    dialogue (h ++ h') = dialogue h ++ dialogue h' := by simp [dialogue]

@[simp] theorem dialogue_cons (e : Event) (h : List Event) :
    dialogue (e :: h) = e.said.toList ++ dialogue h := by
  cases e <;> rfl

theorem Event.IsFraming.said {e : Event} (h : e.IsFraming) : e.said = none := by
  cases e <;> simp_all [Event.IsFraming]

/-- A line with its final reply, and whether a transfer was announced in between. -/
structure Exchange where
  line : Str
  announced : Bool
  code : Nat
  final : 200 ≤ code
  three : code < 1000
  ended : announced = true → code = 226 ∨ code = 520

def Exchange.said (x : Exchange) : List Said :=
  .line x.line :: (if x.announced then [.reply 150] else []) ++ [.reply x.code]

/-- The greeting, then every line with its replies; the last one lacks its final reply just while a
transfer is under way. -/
def Disciplined (c : Client) (h : List Event) : Prop :=
  ∃ xs : List Exchange,
    c.dataCallback = none ∧ dialogue h = .reply 220 :: xs.flatMap Exchange.said ∨
    c.dataCallback.isSome ∧
      ∃ l, dialogue h = .reply 220 :: xs.flatMap Exchange.said ++ [.line l, .reply 150]

/-- An answer settles its line, leaves it to the transfer, or ends the connection. -/
theorem Disciplined.answer {c c' : Client} {h es : List Event} {l : Str} {p : Option Str}
    {r : Int} (hd : Disciplined c h) (hcb : c.dataCallback = none)
    (ha : Answer False es c'.dataCallback.isSome r) (hr : 0 ≤ r) :
    Disciplined c' (h ++ .command l p :: es) := by
  obtain ⟨xs, ⟨-, hx⟩ | ⟨hsome, -⟩⟩ := hd
  · generalize hb : c'.dataCallback.isSome = b at ha
    cases ha with
    | final code text q result hlo hhi hm =>
      have hnone : c'.dataCallback = none := by simpa using hb
      exact ⟨xs ++ [⟨l, false, code, hlo, hhi, by simp⟩], .inl ⟨hnone, by simp [hx, Exchange.said]⟩⟩
    | refused q hq => omega
    | unprepared q e q' =>
      have hnone : c'.dataCallback = none := by simpa using hb
      exact ⟨xs ++ [⟨l, true, 520, by decide, by decide, fun _ => .inr rfl⟩],
        .inl ⟨hnone, by simp [hx, Exchange.said]⟩⟩
    | pending q result hpos => exact ⟨xs, .inr ⟨hb, l, by simp [hx]⟩⟩
  · simp [hcb] at hsome

/-- The end of a transfer settles the line that announced it. -/
theorem Disciplined.ended {c c' : Client} {h : List Event} {code : Nat} {text : Str} {r : Int}
    (hd : Disciplined c h) (hcb : c.dataCallback.isSome) (hcode : code = 226 ∨ code = 520)
    (hnone : c'.dataCallback = none) : Disciplined c' (h ++ [.reply code text r]) := by
  obtain ⟨xs, ⟨hc, -⟩ | ⟨-, l, hx⟩⟩ := hd
  · simp [hc] at hcb
  · refine ⟨xs ++ [⟨l, true, code, by omega, by omega, fun _ => hcode⟩], .inl ⟨hnone, ?_⟩⟩
    simp [hx, Exchange.said]

theorem disciplined_conversation (texts : Int → Str) :
    Conversation texts Disciplined fun _ => True where
  start := trivial
  greeting _ := trivial
  arrive _ _ _ _ := ⟨[], .inl ⟨rfl, rfl⟩⟩
  weaken _ _ _ := trivial
  note c h e he hd := by
    have hsame : dialogue (h ++ [e]) = dialogue h := by
      rw [dialogue_append, dialogue_cons, he.said]
      simp
    unfold Disciplined at hd ⊢
    rwa [hsame]
  leaving _ _ _ _ := trivial
  buffer _ _ _ _ hd := hd
  command s l _ hd hcb hl _ := by
    refine ⟨trivial, fun hr => ?_⟩
    obtain ⟨-, ⟨es, he, ha⟩, -⟩ :=
      @processCommand_answered False l hl False.elim s hcb False.elim
    rw [he, story_emitted, List.append_assoc]
    exact hd.answer hcb ha hr
  data s _ hd hcb := by
    refine ⟨trivial, fun _ => ?_⟩
    rcases @dataEvents_outcome False s with
      ⟨-, hs⟩ | ⟨code, text, r, hcode, -, hstory, -, hnone, -⟩
    · rw [Session.story, hs.hist, hs.conn]
      unfold Disciplined at hd ⊢
      rwa [hs.callback]
    · rw [hstory]
      exact hd.ended hcb hcode hnone
  dismiss _ _ _ _ := trivial

theorem Reachable.disciplined {guard : Server → Label → Prop} {s : Server} (h : Reachable guard s)
    {p : Nat} {c : Client} (hp : s.heap p = some c) : Disciplined c (s.world.hist c.conn) :=
  ((Conversation.reach disciplined_conversation h).clients p c hp).2

/-! ## The form of replies -/

theorem decimal_three {n : Nat} (hlo : 100 ≤ n) (hhi : n < 1000) :
    ∃ a b c, decimal n = [a, b, c] ∧ a.isDigit ∧ b.isDigit ∧ c.isDigit := by
  have hlen : ∀ n < 1000, 100 ≤ n → (decimal n).length = 3 := by decide +kernel
  obtain ⟨a, b, c, he⟩ := List.length_eq_three.mp (hlen n hhi hlo)
  have hdigit : ∀ d ∈ decimal n, d.isDigit := fun d hd =>
    Nat.isDigit_of_mem_toDigits (by decide) (by decide) hd
  rw [he] at hdigit
  exact ⟨a, b, c, he, hdigit a (by simp), hdigit b (by simp), hdigit c (by simp)⟩

/-- A reply is three digits, a space, its text and CRLF. -/
def Formed (code : Nat) (text : Str) : Prop :=
  ∃ a b c, replyText code text = [a, b, c, ' '] ++ text ++ CRLF ∧
    a.isDigit ∧ b.isDigit ∧ c.isDigit

theorem formed_of_three {code : Nat} (hlo : 100 ≤ code) (hhi : code < 1000) (text : Str) :
    Formed code text := by
  obtain ⟨a, b, c, he, ha, hb, hc⟩ := decimal_three hlo hhi
  exact ⟨a, b, c, by simp [replyText, he], ha, hb, hc⟩

theorem Exchange.codes (x : Exchange) {code : Nat} (h : .reply code ∈ x.said) :
    100 ≤ code ∧ code < 1000 := by
  have hfinal := x.final
  have hthree := x.three
  have hcode : code = 150 ∨ code = x.code := by
    simp only [Exchange.said, List.mem_append, List.mem_cons] at h
    cases hx : x.announced <;> simp_all
  omega

theorem Disciplined.formed {c : Client} {h : List Event} (hd : Disciplined c h) {code : Nat}
    {text : Str} {r : Int} (hr : .reply code text r ∈ h) : Formed code text := by
  have hsaid : Said.reply code ∈ dialogue h := List.mem_filterMap.mpr ⟨_, hr, rfl⟩
  have hcodes : ∀ xs : List Exchange, .reply code ∈ xs.flatMap Exchange.said →
      100 ≤ code ∧ code < 1000 := by
    intro xs hmem
    obtain ⟨x, -, hx⟩ := List.mem_flatMap.mp hmem
    exact x.codes hx
  obtain ⟨xs, ⟨-, he⟩ | ⟨-, l, he⟩⟩ := hd
  · rw [he] at hsaid
    rcases List.mem_cons.mp hsaid with hgreeting | hmem
    · obtain rfl := Said.reply.inj hgreeting
      exact formed_of_three (by decide) (by decide) text
    · obtain ⟨hlo, hhi⟩ := hcodes xs hmem
      exact formed_of_three hlo hhi text
  · rw [he, List.cons_append] at hsaid
    rcases List.mem_cons.mp hsaid with hgreeting | hmem
    · obtain rfl := Said.reply.inj hgreeting
      exact formed_of_three (by decide) (by decide) text
    · rcases List.mem_append.mp hmem with hmem | hlast
      · obtain ⟨hlo, hhi⟩ := hcodes xs hmem
        exact formed_of_three hlo hhi text
      · obtain rfl : code = 150 := by simpa using hlast
        exact formed_of_three (by decide) (by decide) text

/-! ## One line each -/

/-- Replies have three digits and a text without a line break. -/
def OneLine (h : List Event) : Prop :=
  ∀ code text r, .reply code text r ∈ h → 100 ≤ code ∧ code < 1000 ∧ '\n' ∉ text

theorem oneLine_append {h h' : List Event} (hh : OneLine h) (hh' : OneLine h') :
    OneLine (h ++ h') := fun code text r hm =>
  (List.mem_append.mp hm).elim (hh code text r) (hh' code text r)

theorem oneLine_of_said {h : List Event} (hh : ∀ e ∈ h, ∀ code text r, e ≠ .reply code text r) :
    OneLine h := fun code text r hm => absurd rfl (hh _ hm code text r)

theorem oneLine_reply {code : Nat} {text : Str} (hlo : 100 ≤ code) (hhi : code < 1000)
    (ht : '\n' ∉ text) (r : Int) : OneLine [.reply code text r] := by
  intro code' text' r' hm
  obtain ⟨rfl, rfl, -⟩ : code' = code ∧ text' = text ∧ r' = r := by simpa using hm
  exact ⟨hlo, hhi, ht⟩

theorem Answer.oneLine {clean : Prop} (hc : clean) {es : List Event} {b : Bool} {r : Int}
    (h : Answer clean es b r) : OneLine es := by
  have hstart : ∀ r, OneLine [.reply 150 "Transferring data.".toList r] :=
    oneLine_reply (by decide) (by decide) (by decide)
  cases h with
  | final code text q _ hlo hhi hm => exact oneLine_reply (by omega) hhi (hm hc) q
  | refused => exact hstart r
  | unprepared q e q' =>
    refine oneLine_append (hstart q) (oneLine_append (h := [.noDataSocket e])
      (oneLine_of_said (by simp)) ?_)
    exact oneLine_reply (by decide) (by decide) (by decide) r
  | pending q => exact hstart q

theorem oneLine_framing {h : List Event} {e : Event} (hh : OneLine h) (he : e.IsFraming) :
    OneLine (h ++ [e]) := by
  refine oneLine_append hh (oneLine_of_said fun e' he' code text r heq => ?_)
  obtain rfl : e' = e := by simpa using he'
  simp [heq, Event.IsFraming] at he

/-- No line break gets into the directory of a client or the replies of a connection. -/
theorem oneLine_conversation (texts : Int → Str) :
    Conversation texts (fun c h => (∀ e, '\n' ∉ texts e) → '\n' ∉ c.cwd ∧ OneLine h)
      fun h => (∀ e, '\n' ∉ texts e) → OneLine h where
  start _ := oneLine_of_said (by simp)
  greeting r _ := oneLine_reply (by decide) (by decide) (by decide) r
  arrive _ _ _ r _ := by
    refine ⟨?_, oneLine_reply (by decide) (by decide) (by decide) r⟩
    change '\n' ∉ ['/']
    decide
  weaken _ _ hj hc := (hj hc).2
  note _ _ _ he hj hc := ⟨(hj hc).1, oneLine_framing (hj hc).2 he⟩
  leaving _ _ he hk hc := oneLine_framing (hk hc) he
  buffer _ _ _ _ hj := hj
  command s l ht hj hcb hl hn := by
    have hclean : (∀ e, '\n' ∉ texts e) → s.Clean := fun hc => ⟨(hj hc).1, ht ▸ hc⟩
    obtain ⟨-, ⟨es, he, ha⟩, hcwd⟩ :=
      @processCommand_answered (∀ e, '\n' ∉ texts e) l hl (fun _ => hn) s hcb hclean
    have hall : (∀ e, '\n' ∉ texts e) → OneLine (processCommand l s).2.story := by
      intro hc
      rw [he, story_emitted]
      exact oneLine_append (oneLine_append (hj hc).2 (oneLine_of_said (by simp))) (ha.oneLine hc)
    exact ⟨hall, fun _ hc => ⟨hcwd hc, hall hc⟩⟩
  data s _ hj _ := by
    rcases @dataEvents_outcome (∀ e, '\n' ∉ texts e) s with
      ⟨-, hs⟩ | ⟨code, text, r, hcode, ht, hstory, -, -, hcwd⟩
    · have hsame : (dataEvents s).2.story = s.story := by
        rw [Session.story, Session.story, hs.hist, hs.conn]
      rw [hsame]
      exact ⟨fun hc => (hj hc).2, fun _ hc => ⟨hs.cwd hc (hj hc).1, (hj hc).2⟩⟩
    · have hone : (∀ e, '\n' ∉ texts e) → OneLine (dataEvents s).2.story := by
        intro hc
        rw [hstory]
        exact oneLine_append (hj hc).2 (oneLine_reply (by omega) (by omega) ht r)
      exact ⟨hone, fun _ hc => ⟨hcwd hc (hj hc).1, hone hc⟩⟩
  dismiss _ _ r hj hc :=
    oneLine_append (hj hc).2 (oneLine_reply (by decide) (by decide) (by decide) r)

/-- In every run each reply is three digits, a space and a text, and its only line feed is the one of
its CRLF. -/
theorem no_reply_splitting {guard : Server → Label → Prop} {s : Server} (h : Reachable guard s)
    (clean : ∀ e, '\n' ∉ s.world.strerror e) {k code : Nat} {text : Str} {r : Int}
    (hr : .reply code text r ∈ s.world.hist k) :
    (∃ a b c, replyText code text = [a, b, c, ' '] ++ text ++ CRLF ∧
      a.isDigit ∧ b.isDigit ∧ c.isDigit) ∧ (replyText code text).count '\n' = 1 := by
  obtain ⟨hlo, hhi, ht⟩ := (Conversation.reach oneLine_conversation h).events k clean code text r hr
  refine ⟨formed_of_three hlo hhi text, ?_⟩
  have hcrlf : CRLF.count '\n' = 1 := by decide
  rw [replyText, List.count_append, List.count_append, List.count_append,
    List.count_eq_zero.mpr (decimal_clean code), List.count_eq_zero.mpr ht, hcrlf]
  decide

def quotedRun : List Label :=
  let lines : NetAnswer := { data := "PASS x\r\nCWD /sd\r\nPWD\r\n".toList }
  connecting [] ++ [.env { net := [lines], files := [{}] }, firstTurn]

theorem no_reply_splitting_quoted :
    let text := "\"/sd/\" is current directory.".toList
    (∃ a b c, replyText 257 text = [a, b, c, ' '] ++ text ++ CRLF ∧
      a.isDigit ∧ b.isDigit ∧ c.isDigit) ∧ (replyText 257 text).count '\n' = 1 :=
  no_reply_splitting (k := 1) (r := 0) (after_reachable quotedRun)
    (fun _ => by simp [after_texts]) (by decide +kernel)

end Ftpii
