import MediaUpdater.Library.Lines
import MediaUpdater.Qt.Codec

/-!
# The replies of the server

`QFtpPI::readyRead` puts the replies of the control connection together from the lines that
have arrived.  A reply of one line is a code of three digits, a space and a text; in a longer
reply the first line has a hyphen after the code, and the reply lasts until a line that
begins with the same code and a space.

The members that this takes are `ReplyReader`; what `processReply` does with a reply is a
parameter here.

## Main results

* `readyRead_eq` — the loops of `readyRead` read one line after another.
* `readyRead_replies` — whatever the packets, every reply that has wholly arrived has been
  processed, once and in order.
-/

namespace MediaUpdater

open Library

/-- `QChar::digitValue`, in Latin-1. -/
def digitValue (c : Char) : ℤ :=
  if c.isDigit then c.toNat - 48
  else if c = '²' then 2
  else if c = '³' then 3
  else if c = '¹' then 1
  else -1

/-- `int replyCode[3]`. -/
@[ext]
structure ReplyCode where
  first : ℤ
  second : ℤ
  third : ℤ
  deriving DecidableEq, Repr

namespace ReplyCode

/-- The code as a number. -/
def toInt (code : ReplyCode) : ℤ := 100 * code.first + 10 * code.second + code.third

/-- The limits of `readyRead`. -/
def Valid (code : ReplyCode) : Prop :=
  (1 ≤ code.first ∧ code.first ≤ 5) ∧ (0 ≤ code.second ∧ code.second ≤ 5) ∧
    0 ≤ code.third ∧ code.third ≤ 9

instance (code : ReplyCode) : Decidable code.Valid := by
  unfold Valid
  infer_instance

/-- `endOfMultiLine` with a space, `lineCont` with a hyphen. -/
def mark (code : ReplyCode) (separator : Char) : QString :=
  [.ofNat (48 + code.first).toNat, .ofNat (48 + code.second).toNat,
    .ofNat (48 + code.third).toNat, separator]

/-- The code of a first line; the digits read so far stay when the line is in error. -/
def read (code : ReplyCode) (line : QString) : Bool × ReplyCode :=
  match line with
  | a :: b :: c :: _ =>
      let code := { code with first := digitValue a }
      if code.first < 1 ∨ 5 < code.first then (false, code)
      else
        let code := { code with second := digitValue b }
        if code.second < 0 ∨ 5 < code.second then (false, code)
        else
          let code := { code with third := digitValue c }
          (decide (0 ≤ code.third ∧ code.third ≤ 9), code)
  | _ => (false, code)

theorem take_mark (code : ReplyCode) (separator : Char) (s : QString) :
    (code.mark separator ++ s).take 4 = code.mark separator := rfl

theorem drop_mark (code : ReplyCode) (separator : Char) (s : QString) :
    (code.mark separator ++ s).drop 4 = s := rfl

theorem mark_injective (code : ReplyCode) : Function.Injective code.mark := by
  intro separator separator' same
  simpa [mark] using same

variable {code : ReplyCode}

theorem read_valid {line : QString} (ok : (code.read line).1 = true) :
    (code.read line).2.Valid := by
  rcases line with _ | ⟨a, _ | ⟨b, _ | ⟨c, rest⟩⟩⟩
  · exact absurd ok Bool.false_ne_true
  · exact absurd ok Bool.false_ne_true
  · exact absurd ok Bool.false_ne_true
  · simp only [ReplyCode.read] at ok ⊢
    split at ok
    · exact absurd ok Bool.false_ne_true
    · split at ok
      · exact absurd ok Bool.false_ne_true
      · rename_i first second
        rw [if_neg first, if_neg second]
        have third := of_decide_eq_true ok
        refine ⟨?_, ?_, third⟩
        all_goals
          simp only
          omega

theorem Valid.digits (valid : code.Valid) :
    ∃ a b c : ℕ, (1 ≤ a ∧ a ≤ 5) ∧ b ≤ 5 ∧ c ≤ 9 ∧ code = ⟨a, b, c⟩ := by
  obtain ⟨first, second, third⟩ := valid
  refine ⟨code.first.toNat, code.second.toNat, code.third.toNat, by omega, by omega, by omega, ?_⟩
  ext
  all_goals
    simp only
    omega

/-- A mark contains digits and its separator. -/
theorem Valid.notMem_mark (valid : code.Valid) {separator c : Char} (noDigit : c.isDigit = false)
    (other : c ≠ separator) : c ∉ code.mark separator := by
  obtain ⟨a, b, d, first, second, third, rfl⟩ := valid.digits
  have digit : ∀ n : ℕ, n ≤ 9 → c ≠ Char.ofNat (48 + (n : ℤ)).toNat := by
    rintro n bound rfl
    revert noDigit
    interval_cases n <;> decide
  intro mem
  simp only [mark, List.mem_cons, List.not_mem_nil, or_false] at mem
  rcases mem with eq | eq | eq | eq
  · exact digit a (by omega) eq
  · exact digit b (by omega) eq
  · exact digit d third eq
  · exact other eq

end ReplyCode

/-- What `readyRead` keeps of a reply that is not processed yet. -/
structure ReplyReader where
  replyText : QString
  replyCode : ReplyCode
  waitForDtpToClose : Bool := false
  deriving DecidableEq, Repr

namespace QFtpPI

/-! ### `readyRead` -/

/-- The text without a line end. -/
def chop (text : QString) : QString :=
  if str "\r\n" <:+ text then text.take (text.length - 2) else text

/-- The lines of a reply up to its last one: the text, whether the last line was there, and
the lines left. -/
def continued (code : ReplyCode) : QString → List QByteArray → QString × Bool × List QByteArray
  | text, [] => (text, false, [])
  | text, line :: lines =>
      let line := fromLatin1 line
      if line.take 4 = code.mark ' ' then (text ++ line.drop 4, true, lines)
      else if line.take 4 = code.mark '-' then continued code (text ++ line.drop 4) lines
      else continued code (text ++ line) lines

/-- One turn of the loop, as far as `processReply`. -/
inductive Turn where
  /-- A protocol error, and the lines behind it. -/
  | error (reader : ReplyReader) (lines : List QByteArray)
  | incomplete (reader : ReplyReader)
  /-- A reply to process, and the lines behind it. -/
  | reply (reader : ReplyReader) (lines : List QByteArray)

/-- The turn that begins with a line. -/
def turn (reader : ReplyReader) (line : QByteArray) (lines : List QByteArray) : Turn :=
  let code :=
    if reader.replyText = [] then reader.replyCode.read (fromLatin1 line)
    else (true, reader.replyCode)
  if code.1 then
    match continued code.2 reader.replyText (line :: lines) with
    | (text, true, lines) => .reply
        { reader with replyText := chop text, replyCode := code.2 } lines
    | (text, false, _) => .incomplete { reader with replyText := text, replyCode := code.2 }
  else .error { reader with replyCode := code.2 } lines

section Loop

variable {σ : Type*} (processReply : ReplyCode → QString → σ → Bool × σ)

/-- `processReply` on the reply that was read.  It answers false where it has set
`waitForDtpToClose`. -/
def process (reader : ReplyReader) (state : σ) : ReplyReader × σ :=
  let answer := processReply reader.replyCode reader.replyText state
  (if answer.1 then { reader with replyText := [] } else { reader with waitForDtpToClose := true },
    answer.2)

/-- The loop of `readyRead` over the complete lines, with the lines that it leaves. -/
def readLoop : ℕ → ReplyReader × σ → List QByteArray → (ReplyReader × σ) × List QByteArray
  | 0, pi, lines => (pi, lines)
  | _ + 1, pi, [] => (pi, [])
  | rounds + 1, pi, line :: lines =>
      match turn pi.1 line lines with
      | .error reader lines => ((reader, pi.2), lines)
      | .incomplete reader => ((reader, pi.2), [])
      | .reply reader lines => readLoop rounds (process processReply reader pi.2) lines

/-- `readyRead`, after a packet has arrived at the unread bytes.  Every turn reads a line, so
that there are no more turns than lines. -/
def readyRead (pi : (ReplyReader × σ) × QByteArray) (packet : QByteArray) :
    (ReplyReader × σ) × QByteArray :=
  if pi.1.1.waitForDtpToClose then (pi.1, pi.2 ++ packet)
  else
    let text := Lines.complete 10 (pi.2 ++ packet)
    let left := readLoop processReply text.1.length pi.1 text.1
    (left.1, left.2.flatten ++ text.2)

/-- A single line, and whether the loop goes on behind it. -/
def readLine (pi : ReplyReader × σ) (line : QByteArray) : (ReplyReader × σ) × Bool :=
  match turn pi.1 line [] with
  | .error reader _ => ((reader, pi.2), false)
  | .incomplete reader => ((reader, pi.2), true)
  | .reply reader _ => (process processReply reader pi.2, true)

end Loop

/-! ### One line after another -/

/-- The turn that a line begins, with the lines behind it. -/
def Turn.followed (lines : List QByteArray) : Turn → Turn
  | .error reader _ => .error reader lines
  | .incomplete reader =>
      match lines with
      | [] => .incomplete reader
      | line :: lines => turn reader line lines
  | .reply reader _ => .reply reader lines

/-- A line with its end adds to the text. -/
theorem continued_line {code : ReplyCode} {text : QString} {line : QByteArray}
    (valid : code.Valid) (ends : ∃ body, 10 ∉ body ∧ line = body ++ [10]) (noNul : 0 ∉ line)
    (open_ : (continued code text [line]).2.1 = false) : (continued code text [line]).1 ≠ [] := by
  obtain ⟨body, -, rfl⟩ := ends
  simp only [continued] at open_ ⊢
  split at open_
  · exact absurd open_ (Bool.false_ne_true ∘ Eq.symm)
  · rename_i notLast
    rw [if_neg notLast]
    split
    · rename_i mark
      intro empty
      have short := List.drop_eq_nil_iff.mp (List.append_eq_nil_iff.mp empty).2
      rw [List.take_of_length_le short] at mark
      refine valid.notMem_mark (show '\n'.isDigit = false by decide) (show '\n' ≠ '-' by decide) ?_
      rw [← mark, fromLatin1_of_notMem noNul, List.map_append]
      exact List.mem_append_right _ (List.mem_singleton_self _)
    · intro empty
      have none := (List.append_eq_nil_iff.mp empty).2
      rw [fromLatin1_of_notMem noNul, List.map_append] at none
      exact absurd (List.append_eq_nil_iff.mp none).2 (List.cons_ne_nil _ _)

theorem continued_ne_nil {code : ReplyCode} {text : QString} {lines : List QByteArray}
    (nonempty : text ≠ []) : (continued code text lines).1 ≠ [] := by
  induction lines generalizing text with
  | nil => exact nonempty
  | cons line lines ih =>
      simp only [continued]
      split
      · exact List.append_ne_nil_of_left_ne_nil nonempty _
      · split
        · exact ih (List.append_ne_nil_of_left_ne_nil nonempty _)
        · exact ih (List.append_ne_nil_of_left_ne_nil nonempty _)

/-- What a line leaves open is taken up by the lines behind it. -/
theorem continued_cons (code : ReplyCode) (text : QString) (line : QByteArray)
    (lines : List QByteArray) :
    continued code text (line :: lines) =
      if (continued code text [line]).2.1 then ((continued code text [line]).1, true, lines)
      else continued code (continued code text [line]).1 lines := by
  simp only [continued]
  split
  · rfl
  · split
    · rfl
    · rfl

/-- The inner loop does not look at the reply's code again, and need not: its text is not empty.
A line that begins with a NUL, or has one behind its mark, would leave the text empty. -/
theorem turn_eq_followed {reader : ReplyReader} {line : QByteArray} (lines : List QByteArray)
    (ends : ∃ body, 10 ∉ body ∧ line = body ++ [10]) (noNul : 0 ∉ line) :
    turn reader line lines = (turn reader line []).followed lines := by
  have opens : ∀ code : ReplyCode, (reader.replyText = [] → code.Valid) →
      (continued code reader.replyText [line]).2.1 = false →
      (continued code reader.replyText [line]).1 ≠ [] := by
    intro code valid open_
    by_cases fresh : reader.replyText = []
    · exact continued_line (valid fresh) ends noNul open_
    · exact continued_ne_nil fresh
  have valid : (if reader.replyText = [] then reader.replyCode.read (fromLatin1 line)
      else (true, reader.replyCode)).1 = true →
      reader.replyText = [] → (if reader.replyText = [] then reader.replyCode.read (fromLatin1 line)
      else (true, reader.replyCode)).2.Valid := by
    intro ok fresh
    rw [if_pos fresh] at ok ⊢
    exact ReplyCode.read_valid ok
  rw [turn, turn]
  generalize (if reader.replyText = [] then reader.replyCode.read (fromLatin1 line)
      else (true, reader.replyCode)) = code at valid
  by_cases ok : code.1 = true
  · rw [if_pos ok, if_pos ok, continued_cons]
    have text := opens code.2 (valid ok)
    rcases found : continued code.2 reader.replyText [line] with ⟨added, whole, left⟩
    rw [found] at text
    cases whole with
    | true => rfl
    | false =>
        rw [if_neg Bool.false_ne_true]
        cases lines with
        | nil => rfl
        | cons next lines =>
            simp only [Turn.followed, turn, if_neg (text rfl), if_true]
  · rw [if_neg ok, if_neg ok]
    rfl

/-- The reader after lines that it takes in without having a reply; `none` if it does not. -/
def absorb (reader : ReplyReader) : List QByteArray → Option ReplyReader
  | [] => some reader
  | line :: lines =>
      match turn reader line [] with
      | .incomplete reader => absorb reader lines
      | _ => none

section Loop

variable {σ : Type*} (processReply : ReplyCode → QString → σ → Bool × σ)

/-- **The loops read one line after another.** -/
theorem readLoop_eq {rounds : ℕ} {lines : List QByteArray} (enough : lines.length ≤ rounds)
    (ends : ∀ line ∈ lines, ∃ body, 10 ∉ body ∧ line = body ++ [10])
    (noNul : ∀ line ∈ lines, 0 ∉ line) (pi : ReplyReader × σ) :
    readLoop processReply rounds pi lines = Lines.drain (readLine processReply) pi lines := by
  induction lines generalizing rounds pi with
  | nil => cases rounds <;> rfl
  | cons line lines ih =>
      obtain ⟨rounds, rfl⟩ : ∃ n, rounds = n + 1 := ⟨rounds - 1, by
        rw [List.length_cons] at enough
        omega⟩
      have fewer : lines.length ≤ rounds := Nat.le_of_succ_le_succ enough
      have later := fun other mem => ends other (List.mem_cons_of_mem line mem)
      have plain := fun other mem => noNul other (List.mem_cons_of_mem line mem)
      rw [readLoop, turn_eq_followed lines (ends line List.mem_cons_self)
        (noNul line List.mem_cons_self), Lines.drain, readLine]
      cases turn pi.1 line [] with
      | error reader left => rfl
      | reply reader left => exact ih fewer later plain _
      | incomplete reader =>
          refine Eq.trans ?_ (ih (Nat.le_succ_of_le fewer) later plain (reader, pi.2))
          cases lines with
          | nil => rfl
          | cons next lines => rfl

variable {processReply}

theorem zero_notMem_complete {text : QByteArray} (noNul : 0 ∉ text) :
    ∀ line ∈ (Lines.complete 10 text).1, 0 ∉ line := by
  intro line mem nul
  refine noNul ?_
  rw [← @Lines.flatten_complete _ _ 10 text]
  exact List.mem_append_left _ (List.mem_flatten_of_mem mem nul)

theorem readyRead_eq {pi : (ReplyReader × σ) × QByteArray} {packet : QByteArray}
    (noNul : 0 ∉ pi.2 ++ packet) (free : pi.1.1.waitForDtpToClose = false) :
    readyRead processReply pi packet = Lines.feed (readLine processReply) 10 pi packet := by
  rw [readyRead, if_neg (ne_true_of_eq_false free), Lines.feed]
  simp only [readLoop_eq processReply le_rfl (fun _ => Lines.ends_of_complete)
    (zero_notMem_complete noNul)]

/-- Packets do not matter as long as the reader neither stops nor waits. -/
theorem foldl_readyRead {pi : ReplyReader × σ} {packets : List QByteArray} {rest : QByteArray}
    (open_ : 10 ∉ rest) (noNul : 0 ∉ rest ++ packets.flatten)
    (on : Lines.GoesOn (readLine processReply) pi (Lines.complete 10 (rest ++ packets.flatten)).1)
    (free : ∀ lines, lines <+: (Lines.complete 10 (rest ++ packets.flatten)).1 →
      (Lines.after (readLine processReply) pi lines).1.waitForDtpToClose = false) :
    packets.foldl (readyRead processReply) (pi, rest) =
      (Lines.after (readLine processReply) pi (Lines.complete 10 (rest ++ packets.flatten)).1,
        (Lines.complete 10 (rest ++ packets.flatten)).2) := by
  refine Eq.trans ?_ (Lines.foldl_feed open_ on)
  induction packets generalizing pi rest with
  | nil => rfl
  | cons packet packets ih =>
      rw [List.flatten_cons, ← List.append_assoc] at noNul
      have here : 0 ∉ rest ++ packet := fun mem => noNul (List.mem_append_left _ mem)
      rw [List.foldl_cons, List.foldl_cons, readyRead_eq here (free [] List.nil_prefix)]
      rw [List.flatten_cons, ← List.append_assoc, Lines.complete_append] at on free
      obtain ⟨here, later⟩ := Lines.goesOn_append.mp on
      rw [Lines.feed, Lines.drain_of_goesOn here, List.flatten_nil, List.nil_append]
      refine ih Lines.notMem_rest (fun nul => noNul ?_) later fun lines before => ?_
      · rw [← @Lines.flatten_complete _ _ 10 (rest ++ packet), List.append_assoc]
        exact List.mem_append_right _ nul
      · rw [← Lines.after_append]
        exact free _ ((List.prefix_append_right_inj _).mpr before)

end Loop

end QFtpPI

/-! ### The replies of a server -/

/-- The end of a line. -/
def lineEnd : QByteArray := [13, 10]

/-- A line of a reply before its last one, without its end.  A marked line is sent with the code
and a hyphen before it. -/
structure ReplyLine where
  marked : Bool
  body : QByteArray

/-- The bytes of the line. -/
def ReplyLine.encode (code : ReplyCode) (line : ReplyLine) : QByteArray :=
  (if line.marked then toLatin1 (code.mark '-') else []) ++ (line.body ++ lineEnd)

/-- A reply that a server may send: its lines before the last one, and the last one without its
mark. -/
structure FtpReply where
  code : ReplyCode
  before : List ReplyLine
  last : QByteArray
  valid : code.Valid
  plain : ∀ body ∈ last :: before.map ReplyLine.body, 10 ∉ body ∧ 0 ∉ body
  first : ∀ line ∈ before.head?, line.marked = true
  /-- A line without a mark does not look as if it had one. -/
  inside : ∀ line ∈ before, line.marked = false → ∀ separator ∈ [' ', '-'],
    ¬ code.mark separator <+: fromLatin1 line.body

namespace FtpReply

/-- The lines as they are sent. -/
def lines (reply : FtpReply) : List QByteArray :=
  reply.before.map (ReplyLine.encode reply.code) ++
    [toLatin1 (reply.code.mark ' ') ++ (reply.last ++ lineEnd)]

/-- The bytes that are sent. -/
def encode (reply : FtpReply) : QByteArray := reply.lines.flatten

theorem flatMap_encode (replies : List FtpReply) :
    replies.flatMap encode = (replies.flatMap lines).flatten := by
  induction replies with
  | nil => rfl
  | cons reply replies ih =>
      rw [List.flatMap_cons, List.flatMap_cons, List.flatten_append, ih, encode]

theorem encode_ne_nil (reply : FtpReply) : reply.encode ≠ [] := by
  rw [encode, lines, List.flatten_append]
  exact List.append_ne_nil_of_right_ne_nil _ (by simp [lineEnd])

/-- The text, without the marks. -/
def text (reply : FtpReply) : QString :=
  fromLatin1 (reply.before.flatMap (fun line => line.body ++ lineEnd) ++ reply.last)

/-- A reply of one line has no first line with a hyphen. -/
theorem first_nil : ∀ line ∈ ([] : List ReplyLine).head?, line.marked = true := nofun

theorem zero_notMem_body (reply : FtpReply) : ∀ line ∈ reply.before, 0 ∉ line.body :=
  fun _ mem => (reply.plain _ (List.mem_cons_of_mem _ (List.mem_map_of_mem mem))).2

end FtpReply

namespace QFtpPI

variable {σ : Type*} {processReply : ReplyCode → QString → σ → Bool × σ}
variable {code : ReplyCode} {pi : ReplyReader × σ}

/-- Between two replies. -/
def Between (reader : ReplyReader) : Prop :=
  reader.replyText = [] ∧ reader.waitForDtpToClose = false

theorem digitValue_digit {n : ℕ} (bound : n ≤ 9) :
    digitValue (Char.ofNat (48 + (n : ℤ)).toNat) = n := by
  interval_cases n <;> decide

theorem read_mark {old : ReplyCode} (valid : code.Valid) (separator : Char) (rest : QString) :
    old.read (code.mark separator ++ rest) = (true, code) := by
  obtain ⟨a, b, c, first, second, third, rfl⟩ := valid.digits
  simp only [ReplyCode.read, ReplyCode.mark, List.cons_append, digitValue_digit third,
    digitValue_digit (show a ≤ 9 by omega), digitValue_digit (show b ≤ 9 by omega)]
  rw [if_neg (by omega), if_neg (by omega), decide_eq_true (by omega)]

theorem mark_latin (valid : code.Valid) {separator : Char}
    (latin : separator.toNat ≠ 0 ∧ separator.toNat < 256) :
    ∀ c ∈ code.mark separator, c.toNat ≠ 0 ∧ c.toNat < 256 := by
  obtain ⟨a, b, c, first, second, third, rfl⟩ := valid.digits
  have digit : ∀ n : ℕ, n ≤ 9 → (Char.ofNat (48 + (n : ℤ)).toNat).toNat ≠ 0 ∧
      (Char.ofNat (48 + (n : ℤ)).toNat).toNat < 256 := by
    intro n bound
    interval_cases n <;> decide
  intro x mem
  simp only [ReplyCode.mark, List.mem_cons, List.not_mem_nil, or_false] at mem
  rcases mem with rfl | rfl | rfl | rfl
  · exact digit a (by omega)
  · exact digit b (by omega)
  · exact digit c third
  · exact latin

theorem zero_notMem_mark (valid : code.Valid) {separator : Char}
    (latin : separator.toNat ≠ 0 ∧ separator.toNat < 256) : 0 ∉ toLatin1 (code.mark separator) :=
  zero_notMem_toLatin1 fun c mem => (mark_latin valid latin c mem).1

theorem fromLatin1_marked (valid : code.Valid) {separator : Char}
    (latin : separator.toNat ≠ 0 ∧ separator.toNat < 256) (body : QByteArray) :
    fromLatin1 (toLatin1 (code.mark separator) ++ body) =
      code.mark separator ++ fromLatin1 body := by
  rw [fromLatin1_append (zero_notMem_mark valid latin),
    fromLatin1_toLatin1 (mark_latin valid latin)]

theorem fromLatin1_lineEnd : fromLatin1 lineEnd = str "\r\n" := by decide

theorem chop_lineEnd (text : QString) : chop (text ++ fromLatin1 lineEnd) = text := by
  rw [fromLatin1_lineEnd, chop, if_pos (List.suffix_append _ _), List.length_append]
  exact List.take_left' rfl

/-- The code of a line with a mark: of a first line it is read. -/
theorem code_marked {reader : ReplyReader} (valid : code.Valid) {separator : Char}
    (latin : separator.toNat ≠ 0 ∧ separator.toNat < 256) (body : QByteArray)
    (fits : reader.replyText = [] ∨ reader.replyCode = code) :
    (if reader.replyText = [] then
        reader.replyCode.read (fromLatin1 (toLatin1 (code.mark separator) ++ body))
      else (true, reader.replyCode)) = (true, code) := by
  rw [fromLatin1_marked valid latin, read_mark valid]
  split
  · rfl
  · rw [fits.resolve_left ‹_›]

/-- The end of a line does not make a mark of what is none. -/
theorem take_ne_mark (valid : code.Valid) {line : QByteArray} (noNul : 0 ∉ line)
    {separator : Char} (other : '\r' ≠ separator)
    (inside : ¬ code.mark separator <+: fromLatin1 line) :
    (fromLatin1 (line ++ lineEnd)).take 4 ≠ code.mark separator := by
  intro same
  rw [fromLatin1_append noNul, fromLatin1_lineEnd] at same
  by_cases long : 4 ≤ (fromLatin1 line).length
  · rw [List.take_append_of_le_length long] at same
    exact inside (same ▸ List.take_prefix 4 _)
  · refine valid.notMem_mark (show '\r'.isDigit = false by decide) other ?_
    rw [← same, List.take_append, List.mem_append]
    right
    obtain ⟨n, more⟩ : ∃ n, 4 - (fromLatin1 line).length = n + 1 :=
      ⟨3 - (fromLatin1 line).length, by omega⟩
    rw [more]
    exact List.mem_cons_self

/-- A line before the last one is taken in, without its mark. -/
theorem turn_line {reader : ReplyReader} {line : ReplyLine} (valid : code.Valid)
    (noNul : 0 ∉ line.body) (first : reader.replyText = [] → line.marked = true)
    (fits : reader.replyText = [] ∨ reader.replyCode = code)
    (inside : line.marked = false → ∀ separator ∈ [' ', '-'],
      ¬ code.mark separator <+: fromLatin1 line.body) :
    turn reader (line.encode code) [] =
      .incomplete { reader with
        replyText := reader.replyText ++ fromLatin1 (line.body ++ lineEnd)
        replyCode := code } := by
  by_cases marked : line.marked = true
  · have other : code.mark '-' ≠ code.mark ' ' := by
      intro same
      exact absurd (code.mark_injective same) (by decide)
    rw [turn, ReplyLine.encode, if_pos marked, code_marked valid (by decide) _ fits]
    simp only [if_true, continued,
      fromLatin1_marked valid (show '-'.toNat ≠ 0 ∧ '-'.toNat < 256 by decide)]
    rw [ReplyCode.take_mark, if_neg other, if_pos rfl, ReplyCode.drop_mark]
  · have unmarked := eq_false_of_ne_true marked
    have nonempty : reader.replyText ≠ [] := marked ∘ first
    have same := fits.resolve_left nonempty
    have noMark : ∀ separator ∈ [' ', '-'],
        (fromLatin1 (line.body ++ lineEnd)).take 4 ≠ code.mark separator := by
      intro separator kind
      refine take_ne_mark valid noNul ?_ (inside unmarked separator kind)
      rintro rfl
      exact absurd kind (by decide)
    rw [turn, if_neg nonempty, ReplyLine.encode, if_neg marked, List.nil_append, same]
    simp only [if_true, continued]
    rw [if_neg (noMark ' ' (by decide)), if_neg (noMark '-' (by decide))]

theorem turn_last {reader : ReplyReader} (valid : code.Valid)
    (fits : reader.replyText = [] ∨ reader.replyCode = code) {last : QByteArray}
    (noNul : 0 ∉ last) :
    turn reader (toLatin1 (code.mark ' ') ++ (last ++ lineEnd)) [] =
      .reply { reader with
        replyText := reader.replyText ++ fromLatin1 last
        replyCode := code } [] := by
  rw [turn, code_marked valid (by decide) (last ++ lineEnd) fits]
  simp only [if_true, continued,
    fromLatin1_marked valid (show ' '.toNat ≠ 0 ∧ ' '.toNat < 256 by decide)]
  rw [ReplyCode.take_mark, if_pos rfl, ReplyCode.drop_mark, fromLatin1_append noNul,
    ← List.append_assoc]
  simp only [chop_lineEnd]

theorem zero_notMem_bodies {before : List ReplyLine} (noNul : ∀ line ∈ before, 0 ∉ line.body) :
    0 ∉ before.flatMap fun line => line.body ++ lineEnd := by
  intro mem
  obtain ⟨line, inside, nul⟩ := List.mem_flatMap.mp mem
  rcases List.mem_append.mp nul with nul | nul
  · exact noNul line inside nul
  · exact absurd nul (by decide)

/-- The lines before the last one. -/
theorem absorb_before {reader : ReplyReader} {before : List ReplyLine} (valid : code.Valid)
    (noNul : ∀ line ∈ before, 0 ∉ line.body)
    (first : reader.replyText = [] → ∀ line ∈ before.head?, line.marked = true)
    (fits : reader.replyText = [] ∨ reader.replyCode = code)
    (inside : ∀ line ∈ before, line.marked = false → ∀ separator ∈ [' ', '-'],
      ¬ code.mark separator <+: fromLatin1 line.body) :
    ∃ opened, absorb reader (before.map (ReplyLine.encode code)) = some opened ∧
      opened.waitForDtpToClose = reader.waitForDtpToClose ∧
      opened.replyText =
        reader.replyText ++ fromLatin1 (before.flatMap fun line => line.body ++ lineEnd) ∧
      (opened.replyText = [] ∨ opened.replyCode = code) := by
  induction before generalizing reader with
  | nil => exact ⟨reader, rfl, rfl, (List.append_nil _).symm, fits⟩
  | cons line before ih =>
      have plain := noNul line List.mem_cons_self
      have later := fun other mem => noNul other (List.mem_cons_of_mem line mem)
      have whole : 0 ∉ line.body ++ lineEnd := by simp [plain, lineEnd]
      have nonempty : reader.replyText ++ fromLatin1 (line.body ++ lineEnd) ≠ [] := by
        rw [fromLatin1_append plain, fromLatin1_lineEnd]
        exact List.append_ne_nil_of_right_ne_nil _
          (List.append_ne_nil_of_right_ne_nil _ (List.cons_ne_nil _ _))
      rw [List.map_cons, absorb, turn_line valid plain (fun fresh => first fresh line rfl) fits
        (inside line List.mem_cons_self)]
      obtain ⟨opened, absorbed, waits, text, fits⟩ := @ih
        { reader with
          replyText := reader.replyText ++ fromLatin1 (line.body ++ lineEnd)
          replyCode := code }
        later (fun empty => absurd empty nonempty) (.inr rfl)
        fun other mem => inside other (List.mem_cons_of_mem line mem)
      refine ⟨opened, absorbed, waits, text.trans ?_, fits⟩
      rw [List.flatMap_cons, fromLatin1_append whole, List.append_assoc]

variable {reply : FtpReply} {reader : ReplyReader}

/-- The last line completes the reply. -/
theorem turn_closing (reply : FtpReply) (fresh : reader.replyText = []) :
    ∃ opened, absorb reader (reply.before.map (ReplyLine.encode reply.code)) = some opened ∧
      turn opened (toLatin1 (reply.code.mark ' ') ++ (reply.last ++ lineEnd)) [] =
        .reply { reader with replyText := reply.text, replyCode := reply.code } [] := by
  obtain ⟨opened, absorbed, waits, text, fits⟩ := absorb_before reply.valid
    reply.zero_notMem_body (fun _ => reply.first) (.inl fresh) reply.inside
  refine ⟨opened, absorbed, ?_⟩
  have last : 0 ∉ reply.last := (reply.plain _ List.mem_cons_self).2
  rw [turn_last reply.valid fits last, text, fresh, List.nil_append, FtpReply.text,
    fromLatin1_append (zero_notMem_bodies reply.zero_notMem_body), waits]

/-- Before that the lines are taken in. -/
theorem absorb_prefix (fresh : reader.replyText = []) {lines : List QByteArray}
    (before : lines <+: reply.lines) (short : lines ≠ reply.lines) :
    ∃ opened, absorb reader lines = some opened ∧
      opened.waitForDtpToClose = reader.waitForDtpToClose := by
  have opens := (List.prefix_concat_iff.mp before).resolve_left short
  rw [List.prefix_iff_eq_take.mp opens, ← List.map_take]
  have part : ∀ line ∈ reply.before.take lines.length, line ∈ reply.before :=
    fun _ => List.mem_of_mem_take
  have first : ∀ line ∈ (reply.before.take lines.length).head?, line.marked = true := by
    intro line mem
    rw [List.head?_take] at mem
    split at mem
    · cases mem
    · exact reply.first line mem
  obtain ⟨opened, absorbed, waits, -, -⟩ := absorb_before reply.valid
    (fun line mem => reply.zero_notMem_body line (part line mem)) (fun _ => first) (.inl fresh)
    fun line mem => reply.inside line (part line mem)
  exact ⟨opened, absorbed, waits⟩

variable (processReply)

/-- Nothing is processed while the lines are taken in. -/
theorem after_absorb {lines : List QByteArray} (absorbed : absorb pi.1 lines = some reader) :
    Lines.GoesOn (readLine processReply) pi lines ∧
      Lines.after (readLine processReply) pi lines = (reader, pi.2) := by
  induction lines generalizing pi with
  | nil => exact ⟨trivial, Prod.ext (Option.some.inj absorbed) rfl⟩
  | cons line lines ih =>
      rw [absorb] at absorbed
      split at absorbed
      · rename_i next incomplete
        have read : readLine processReply pi line = ((next, pi.2), true) := by
          rw [readLine, incomplete]
        rw [Lines.goesOn_cons, Lines.after_cons, read]
        obtain ⟨on, after⟩ := @ih (next, pi.2) absorbed
        exact ⟨⟨rfl, on⟩, after⟩
      · cases absorbed

/-- **A reply is processed as soon as its last line has arrived.** -/
theorem after_lines (between : Between pi.1)
    (takes : ∀ s, (processReply reply.code reply.text s).1 = true) :
    Lines.GoesOn (readLine processReply) pi reply.lines ∧
      Lines.after (readLine processReply) pi reply.lines =
        ({ pi.1 with replyText := [], replyCode := reply.code },
          (processReply reply.code reply.text pi.2).2) := by
  obtain ⟨opened, absorbed, closes⟩ := turn_closing reply between.1
  obtain ⟨on, after⟩ := after_absorb processReply absorbed
  have last : readLine processReply (opened, pi.2)
      (toLatin1 (reply.code.mark ' ') ++ (reply.last ++ lineEnd)) =
        (({ pi.1 with replyText := [], replyCode := reply.code },
          (processReply reply.code reply.text pi.2).2), true) := by
    rw [readLine, closes]
    simp only [process, takes, if_true]
  rw [FtpReply.lines, Lines.goesOn_append, Lines.after_append, Lines.goesOn_cons, Lines.after_cons,
    after, last]
  exact ⟨⟨on, rfl, trivial⟩, rfl⟩

/-- Nothing is processed before that. -/
theorem goesOn_after (between : Between pi.1) {lines : List QByteArray}
    (before : lines <+: reply.lines) (short : lines ≠ reply.lines) :
    Lines.GoesOn (readLine processReply) pi lines ∧
      (Lines.after (readLine processReply) pi lines).1.waitForDtpToClose = false ∧
      (Lines.after (readLine processReply) pi lines).2 = pi.2 := by
  obtain ⟨opened, absorbed, waits⟩ := absorb_prefix between.1 before short
  obtain ⟨on, after⟩ := after_absorb processReply absorbed
  rw [after]
  exact ⟨on, waits.trans between.2, rfl⟩

variable {processReply}

/-- The end of a line, behind its mark and its text. -/
theorem ends_line {mark body : QByteArray} (marked : 10 ∉ mark) (plain : 10 ∉ body) :
    ∃ whole, 10 ∉ whole ∧ mark ++ (body ++ lineEnd) = whole ++ [10] :=
  ⟨mark ++ (body ++ [13]), by simp [marked, plain], by simp [lineEnd]⟩

theorem notMem_mark (valid : code.Valid) {separator : Char}
    (latin : separator.toNat ≠ 0 ∧ separator.toNat < 256) (other : '\n' ≠ separator) :
    10 ∉ toLatin1 (code.mark separator) := by
  intro mem
  refine valid.notMem_mark (show '\n'.isDigit = false by decide) other ?_
  rw [← fromLatin1_toLatin1 (mark_latin valid latin),
    fromLatin1_of_notMem (zero_notMem_mark valid latin)]
  exact List.mem_map_of_mem mem

theorem ends_lines : ∀ line ∈ reply.lines, ∃ body, 10 ∉ body ∧ line = body ++ [10] := by
  intro line mem
  rw [FtpReply.lines, List.mem_append, List.mem_singleton] at mem
  rcases mem with mem | rfl
  · obtain ⟨before, inside, rfl⟩ := List.mem_map.mp mem
    have plain := (reply.plain _ (List.mem_cons_of_mem _ (List.mem_map_of_mem inside))).1
    refine ends_line ?_ plain
    split
    · exact notMem_mark reply.valid (by decide) (by decide)
    · exact List.not_mem_nil
  · exact ends_line (notMem_mark reply.valid (by decide) (by decide))
      (reply.plain _ List.mem_cons_self).1

theorem zero_notMem_lines : ∀ line ∈ reply.lines, 0 ∉ line := by
  have bare : 0 ∉ lineEnd := by decide
  intro line mem
  rw [FtpReply.lines, List.mem_append, List.mem_singleton] at mem
  rcases mem with mem | rfl
  · obtain ⟨before, inside, rfl⟩ := List.mem_map.mp mem
    rw [ReplyLine.encode, List.mem_append, List.mem_append, not_or, not_or]
    refine ⟨?_, reply.zero_notMem_body before inside, bare⟩
    split
    · exact zero_notMem_mark reply.valid (by decide)
    · exact List.not_mem_nil
  · rw [List.mem_append, List.mem_append, not_or, not_or]
    exact ⟨zero_notMem_mark reply.valid (by decide), (reply.plain _ List.mem_cons_self).2, bare⟩

theorem zero_notMem_encode : 0 ∉ reply.encode := by
  intro mem
  obtain ⟨line, inside, nul⟩ := List.mem_flatten.mp mem
  exact zero_notMem_lines line inside nul

/-- The replies that have wholly arrived, and a part of the next one. -/
theorem after_replies {done : List FtpReply} {next : FtpReply} {lines : List QByteArray}
    (between : Between pi.1) (cut : lines <+: next.lines) (short : lines ≠ next.lines)
    (takes : ∀ reply ∈ done, ∀ s, (processReply reply.code reply.text s).1 = true) :
    Lines.GoesOn (readLine processReply) pi (done.flatMap FtpReply.lines ++ lines) ∧
      (∀ part, part <+: done.flatMap FtpReply.lines ++ lines →
        (Lines.after (readLine processReply) pi part).1.waitForDtpToClose = false) ∧
      (Lines.after (readLine processReply) pi (done.flatMap FtpReply.lines ++ lines)).2 =
        done.foldl (fun s reply => (processReply reply.code reply.text s).2) pi.2 := by
  induction done generalizing pi with
  | nil =>
      obtain ⟨on, -, after⟩ := goesOn_after processReply between cut short
      refine ⟨on, fun part before => ?_, after⟩
      refine (goesOn_after processReply between (before.trans cut) ?_).2.1
      rintro rfl
      exact short (cut.eq_of_length_le before.length_le)
  | cons reply done ih =>
      obtain ⟨on, after⟩ := after_lines processReply between (takes reply List.mem_cons_self)
      have again : Between (Lines.after (readLine processReply) pi reply.lines).1 := by
        rw [after]
        exact ⟨rfl, between.2⟩
      obtain ⟨later, free, outcome⟩ :=
        ih again fun other mem => takes other (List.mem_cons_of_mem _ mem)
      rw [List.flatMap_cons, List.append_assoc, Lines.goesOn_append, Lines.after_append, outcome,
        after, List.foldl_cons]
      refine ⟨⟨on, after ▸ later⟩, fun part before => ?_, rfl⟩
      rcases List.prefix_or_prefix_of_prefix before (List.prefix_append reply.lines _) with
        inside | ⟨rest, rfl⟩
      · by_cases whole : part = reply.lines
        · rw [whole, after]
          exact between.2
        · exact (goesOn_after processReply between inside whole).2.1
      · rw [Lines.after_append]
        exact free rest ((List.prefix_append_right_inj _).mp before)

variable (processReply) (pi)

/-- **The replies survive the packets.**  When the packets that have arrived hold the replies
`done` and a part of the next one, then exactly `done` has been processed, in order. -/
theorem readyRead_replies {done : List FtpReply} {next : FtpReply} {part : QByteArray}
    {packets : List QByteArray} (between : Between pi.1) (cut : part <+: next.encode)
    (short : part ≠ next.encode)
    (received : packets.flatten = done.flatMap FtpReply.encode ++ part)
    (takes : ∀ reply ∈ done, ∀ s, (processReply reply.code reply.text s).1 = true) :
    (packets.foldl (readyRead processReply) (pi, [])).1.2 =
      done.foldl (fun s reply => (processReply reply.code reply.text s).2) pi.2 := by
  have ends : ∀ line ∈ done.flatMap FtpReply.lines, ∃ body, 10 ∉ body ∧ line = body ++ [10] := by
    intro line mem
    obtain ⟨reply, -, inside⟩ := List.mem_flatMap.mp mem
    exact ends_lines line inside
  obtain ⟨inside, fewer⟩ := Lines.complete_of_prefix ends_lines cut short
  obtain ⟨on, free, outcome⟩ := after_replies between inside fewer takes
  have arrived : (Lines.complete 10 ([] ++ packets.flatten)).1 =
      done.flatMap FtpReply.lines ++ (Lines.complete 10 part).1 := by
    rw [List.nil_append, received, FtpReply.flatMap_encode, Lines.complete_flatten ends]
  have noNul : 0 ∉ [] ++ packets.flatten := by
    rw [List.nil_append, received, List.mem_append, not_or]
    refine ⟨fun mem => ?_, fun mem => zero_notMem_encode (cut.subset mem)⟩
    obtain ⟨reply, -, nul⟩ := List.mem_flatMap.mp mem
    exact zero_notMem_encode nul
  rw [foldl_readyRead List.not_mem_nil noNul (by rwa [arrived]) (by rwa [arrived]), arrived,
    outcome]

end QFtpPI

/-- A greeting of four lines, the third of which has a mark. -/
def FtpReply.greeting : FtpReply where
  code := ⟨2, 2, 0⟩
  before :=
    [⟨true, toLatin1 (str "Welcome")⟩, ⟨false, toLatin1 (str " to the server")⟩,
      ⟨true, toLatin1 (str "of media")⟩]
  last := toLatin1 (str "Ready")
  valid := by decide
  plain := by simp [str, toLatin1]
  first := by decide
  inside := by simp [str, toLatin1, fromLatin1, ReplyCode.mark]

/-- The question for the password. -/
def FtpReply.needPassword : FtpReply where
  code := ⟨3, 3, 1⟩
  before := []
  last := toLatin1 (str "Password")
  valid := by decide
  plain := by simp [str, toLatin1]
  first := first_nil
  inside := by decide

namespace QFtpPI

/-- The greeting in three packets, the last of which begins the next reply. -/
theorem readyRead_replies_demo :
    (([str "220-Wel", str "come\r\n to the server\r\n220-of media\r",
        str "\n220 Ready\r\n331 Pa"].map toLatin1).foldl
      (readyRead fun code text (log : List (ReplyCode × QString)) => (true, log ++ [(code, text)]))
      ((⟨[], ⟨0, 0, 0⟩, false⟩, []), [])).1.2 =
        [(⟨2, 2, 0⟩, str "Welcome\r\n to the server\r\nof media\r\nReady")] := by
  have cut : toLatin1 (str "331 Pa") <+: FtpReply.needPassword.encode := by decide +kernel
  have short : toLatin1 (str "331 Pa") ≠ FtpReply.needPassword.encode := by decide +kernel
  have received : ([str "220-Wel", str "come\r\n to the server\r\n220-of media\r",
      str "\n220 Ready\r\n331 Pa"].map toLatin1).flatten =
        [FtpReply.greeting].flatMap FtpReply.encode ++ toLatin1 (str "331 Pa") := by
    decide +kernel
  refine (readyRead_replies _ _ ⟨rfl, rfl⟩ cut short received fun _ _ _ => rfl).trans ?_
  decide +kernel

end QFtpPI

end MediaUpdater
