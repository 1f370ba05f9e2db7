import MediaUpdater.QFtp.Replies

/-!
# A reply in pieces

`Replies` follows `readyRead` from one reply to the next.  Here the reader is followed inside
a reply: what it holds when the beginning of the reply has arrived, and what the next packet makes
of that.

## Main results

* `Partway.more` — a packet that does not complete the reply is taken in.
* `Partway.whole` — a packet that does, and what is left of it.
-/

namespace MediaUpdater.QFtpPI

open Library

/-- One turn of the loop of `readyRead`, for the bytes at the socket; `none` if there is no
complete line. -/
def nextTurn (reader : ReplyReader) (unread : QByteArray) : Option Turn :=
  match (Lines.complete 10 unread).1 with
  | [] => none
  | line :: lines => some (turn reader line lines)

/-- The beginning `part` of a reply has arrived: what the reader holds, and what it has not read. -/
structure Partway (start : ReplyReader) (part : QByteArray) (reader : ReplyReader)
    (unread : QByteArray) : Prop where
  absorbed : absorb start (Lines.complete 10 part).1 = some reader
  rest : unread = (Lines.complete 10 part).2

variable {start reader opened : ReplyReader} {part unread packet left : QByteArray}
variable {lines : List QByteArray} {reply : FtpReply}

theorem Partway.nil (start : ReplyReader) : Partway start [] start [] := ⟨rfl, rfl⟩

theorem absorb_append (lines lines' : List QByteArray) :
    absorb start (lines ++ lines') = (absorb start lines).bind fun reader =>
    absorb reader lines' := by
  induction lines generalizing start with
  | nil => rfl
  | cons line lines ih =>
      rw [List.cons_append, absorb, absorb]
      cases turn start line [] with
      | incomplete reader => exact ih
      | error reader lines => rfl
      | reply reader lines => rfl

/-- A turn takes in all that it can. -/
theorem turn_absorb {line : QByteArray}
    (ends : ∀ other ∈ line :: lines, ∃ body, 10 ∉ body ∧ other = body ++ [10])
    (noNul : ∀ other ∈ line :: lines, 0 ∉ other)
    (absorbed : absorb start (line :: lines) = some reader) :
    turn start line lines = .incomplete reader := by
  induction lines generalizing start line with
  | nil =>
      rw [absorb] at absorbed
      split at absorbed
      · rename_i next incomplete
        obtain rfl := Option.some.inj absorbed
        exact incomplete
      · cases absorbed
  | cons next lines ih =>
      rw [turn_eq_followed _ (ends line List.mem_cons_self) (noNul line List.mem_cons_self)]
      rw [absorb] at absorbed
      split at absorbed
      · rename_i first incomplete
        rw [incomplete]
        exact ih (fun other mem => ends other (List.mem_cons_of_mem _ mem))
          (fun other mem => noNul other (List.mem_cons_of_mem _ mem)) absorbed
      · cases absorbed

/-- A turn ends with the line that completes the reply. -/
theorem turn_absorb_reply (after : List QByteArray) {last : QByteArray} {whole : ReplyReader}
    {before : List QByteArray}
    (ends : ∀ line ∈ before ++ [last], ∃ body, 10 ∉ body ∧ line = body ++ [10])
    (noNul : ∀ line ∈ before ++ [last], 0 ∉ line)
    (absorbed : absorb start before = some opened)
    (closes : turn opened last [] = .reply whole []) :
    ∃ line lines, before ++ last :: after = line :: lines ∧
    turn start line lines = .reply whole after := by
  induction before generalizing start with
  | nil =>
      obtain rfl := Option.some.inj absorbed
      refine ⟨last, after, rfl, ?_⟩
      rw [turn_eq_followed _ (ends last List.mem_cons_self) (noNul last List.mem_cons_self),
        closes]
      rfl
  | cons line before ih =>
      refine ⟨line, before ++ last :: after, rfl, ?_⟩
      rw [turn_eq_followed _ (ends line List.mem_cons_self) (noNul line List.mem_cons_self)]
      rw [absorb] at absorbed
      split at absorbed
      · rename_i first incomplete
        obtain ⟨next, rest, split, turned⟩ :=
          ih (fun other mem => ends other (List.mem_cons_of_mem _ mem))
            (fun other mem => noNul other (List.mem_cons_of_mem _ mem)) absorbed
        rw [incomplete, split]
        exact turned
      · cases absorbed

namespace Partway

/-- **A packet that does not complete the reply** is taken in. -/
theorem more (partway : Partway start part reader unread) (fresh : start.replyText = [])
    (cut : part ++ packet <+: reply.encode) (short : part ++ packet ≠ reply.encode) :
    ∃ next rest, Partway start (part ++ packet) next rest ∧
      next.waitForDtpToClose = start.waitForDtpToClose ∧
      (nextTurn reader (unread ++ packet) = none ∧ next = reader ∧ rest = unread ++ packet ∨
        nextTurn reader (unread ++ packet) = some (.incomplete next) ∧
          rest = (Lines.complete 10 (unread ++ packet)).2) := by
  obtain ⟨inside, fewer⟩ := Lines.complete_of_prefix ends_lines cut short
  obtain ⟨next, absorbed, waits⟩ := absorb_prefix fresh inside fewer
  have bytes : (Lines.complete 10 (part ++ packet)) = ((Lines.complete 10 part).1 ++
      (Lines.complete 10 (unread ++ packet)).1, (Lines.complete 10 (unread ++ packet)).2) := by
    rw [Lines.complete_append, partway.rest]
  have here : absorb reader (Lines.complete 10 (unread ++ packet)).1 = some next := by
    rwa [bytes, absorb_append, partway.absorbed, Option.bind_some] at absorbed
  refine ⟨next, (Lines.complete 10 (unread ++ packet)).2, ⟨absorbed, by rw [bytes]⟩, waits, ?_⟩
  rcases found : (Lines.complete 10 (unread ++ packet)).1 with _ | ⟨line, lines⟩
  · refine .inl ⟨by rw [nextTurn, found], ?_, ?_⟩
    · rw [found] at here
      exact (Option.some.inj here).symm
    · have all := @Lines.flatten_complete _ _ 10 (unread ++ packet)
      rwa [found] at all
  · rw [found] at here
    refine .inr ⟨?_, rfl⟩
    rw [nextTurn, found]
    simp only
    have noNul : 0 ∉ unread ++ packet := by
      intro nul
      refine @zero_notMem_encode reply (cut.subset ?_)
      rw [← @Lines.flatten_complete _ _ 10 part, ← partway.rest, List.append_assoc]
      exact List.mem_append_right _ nul
    rw [turn_absorb (fun other mem => Lines.ends_of_complete (found ▸ mem))
      (fun other mem => zero_notMem_complete noNul other (found ▸ mem)) here]

/-- **A packet that completes the reply**, and what is left of it. -/
theorem whole (partway : Partway start part reader unread) (fresh : start.replyText = [])
    (cut : part <+: reply.encode) (short : part ≠ reply.encode)
    (bytes : part ++ packet = reply.encode ++ left) :
    ∃ lines rest, nextTurn reader (unread ++ packet) =
        some (.reply { start with replyText := reply.text, replyCode := reply.code } lines) ∧
      rest = (Lines.complete 10 (unread ++ packet)).2 ∧ lines.flatten ++ rest = left := by
  obtain ⟨inside, fewer⟩ := Lines.complete_of_prefix ends_lines cut short
  obtain ⟨behind, opening⟩ := (List.prefix_concat_iff.mp inside).resolve_left fewer
  obtain ⟨opened, absorbed, closes⟩ := turn_closing reply fresh
  rw [← opening, absorb_append, partway.absorbed, Option.bind_some] at absorbed
  have arrived := @Lines.complete_append _ _ 10 part packet
  rw [bytes, FtpReply.encode, Lines.complete_flatten ends_lines, ← partway.rest, FtpReply.lines,
    ← opening, Prod.mk.injEq, List.append_assoc, List.append_assoc,
    List.append_cancel_left_eq] at arrived
  obtain ⟨lines, rest⟩ := arrived
  have sent : ∀ line ∈ behind ++ [toLatin1 (reply.code.mark ' ') ++ (reply.last ++ lineEnd)],
      line ∈ reply.lines := by
    intro line mem
    rw [FtpReply.lines, ← opening, List.append_assoc]
    exact List.mem_append_right _ mem
  have ends := fun line mem => @ends_lines reply line (sent line mem)
  have noNul := fun line mem => @zero_notMem_lines reply line (sent line mem)
  obtain ⟨line, others, first, turned⟩ :=
    turn_absorb_reply (Lines.complete 10 left).1 ends noNul absorbed closes
  refine ⟨(Lines.complete 10 left).1, _, ?_, rfl, ?_⟩
  · rw [nextTurn, ← lines, List.singleton_append, first]
    exact congrArg some turned
  · rw [← rest]
    exact Lines.flatten_complete

end Partway

end MediaUpdater.QFtpPI
