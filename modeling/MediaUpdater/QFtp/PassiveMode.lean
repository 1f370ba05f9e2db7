import MediaUpdater.QFtp.Columns

/-!
# The address of the data connection

In passive mode the server names the address to which the client connects for a transfer.
`QFtpPI::processReply` looks for it in the text of a 227 reply, where it may stand in
parentheses or not, and in the text of a 229 reply, which names the port alone.

## Main result

* `dataAddress_passive` — whatever a server writes around the address, it is found.
-/

namespace MediaUpdater

open Library

/-- What `processReply` does about the address. -/
inductive DataAddress where
  /-- The reply has no address. -/
  | missing
  /-- The port would stand behind the end of the text. -/
  | outOfRange
  /-- `dtp.connectToHost(host, port)` -/
  | found (host : QString) (port : UInt16)
  deriving DecidableEq, Repr

namespace QFtpPI

/-- `(\d+)` -/
def digitsGroup : Pattern Char := .group (.many 1 Char.isDigit)

/-- `(\d+),(\d+),(\d+),(\d+),(\d+),(\d+)` -/
def addrPortPattern : Pattern Char :=
  .inOrder [digitsGroup, .text [','], digitsGroup, .text [','], digitsGroup, .text [','],
    digitsGroup, .text [','], digitsGroup, .text [','], digitsGroup]

/-- The address in the text of a 227 reply. -/
def pasvAddress (replyText : QString) : DataAddress :=
  match addrPortPattern.search replyText fun _ captures _ => some captures with
  | some [h1, h2, h3, h4, p1, p2] =>
      .found (h1 ++ '.' :: (h2 ++ '.' :: (h3 ++ '.' :: h4)))
        ((toUInt p1 <<< 8) + toUInt p2).toUInt16
  | _ => .missing

/-- The address in the text of a 229 reply, on the host at the other end of the control
connection. -/
def epsvAddress (peerAddress replyText : QString) : DataAddress :=
  match indexOf ['('] replyText with
  | none => .missing
  | some portPos =>
      match replyText.drop (portPos + 1) with
      | [] => .outOfRange
      | delimiter :: rest =>
          match ((delimiter :: rest).splitOn delimiter)[3]? with
          | some port => .found peerAddress (.ofInt (toInt port))
          | none => .outOfRange

/-- The special actions of `processReply` on the replies 227 and 229. -/
def dataAddress (peerAddress : QString) (replyCode : ℤ) (replyText : QString) : DataAddress :=
  if replyCode = 227 then pasvAddress replyText
  else if replyCode = 229 then epsvAddress peerAddress replyText
  else .missing

end QFtpPI

/-! ### What a server names -/

/-- The addresses that a server may name. -/
inductive PassiveAddress where
  | pasv (h1 h2 h3 h4 : ℕ) (port : UInt16)
  /-- A port between delimiters. -/
  | epsv (delimiter : Char) (port : UInt16) (noDigit : delimiter.isDigit = false)

namespace PassiveAddress

/-- The code of the reply. -/
def code : PassiveAddress → ℤ
  | .pasv .. => 227
  | .epsv .. => 229

/-- The address as it is written. -/
def text : PassiveAddress → QString
  | .pasv h1 h2 h3 h4 port =>
      Nat.toDigits 10 h1 ++ ',' :: (Nat.toDigits 10 h2 ++ ',' :: (Nat.toDigits 10 h3 ++
        ',' :: (Nat.toDigits 10 h4 ++ ',' :: (Nat.toDigits 10 (port.toNat / 256) ++
          ',' :: Nat.toDigits 10 (port.toNat % 256)))))
  | .epsv d port _ => '(' :: d :: d :: d :: (Nat.toDigits 10 port.toNat ++ [d])

/-- The host, given the one at the other end of the control connection. -/
def host (peerAddress : QString) : PassiveAddress → QString
  | .pasv h1 h2 h3 h4 _ =>
      Nat.toDigits 10 h1 ++ '.' :: (Nat.toDigits 10 h2 ++ '.' :: (Nat.toDigits 10 h3 ++
        '.' :: Nat.toDigits 10 h4))
  | .epsv .. => peerAddress

def port : PassiveAddress → UInt16
  | .pasv _ _ _ _ port => port
  | .epsv _ port _ => port

/-- The text around the address does not hide it. -/
def Apart (pre post : QString) : PassiveAddress → Prop
  | .pasv .. => (',' ∉ pre ∧ ∀ c ∈ pre.getLast?, c.isDigit = false) ∧
      ∀ c ∈ post.head?, c.isDigit = false
  | .epsv .. => '(' ∉ pre

end PassiveAddress

/-! ### Numbers -/

theorem all_isDigit_toDigits (n : ℕ) : (Nat.toDigits 10 n).all Char.isDigit = true :=
  List.all_eq_true.mpr fun _ mem => Nat.isDigit_of_mem_toDigits (by decide) (by decide) mem

theorem toUInt_toDigits {n : ℕ} (bound : n < 2 ^ 32) : toUInt (Nat.toDigits 10 n) = .ofNat n := by
  rw [toUInt, Nat.ofDigitChars_ten_toDigits, if_pos bound]

theorem toInt_toDigits {n : ℕ} (bound : n < 2 ^ 31) : toInt (Nat.toDigits 10 n) = n := by
  have digit : ∀ c ∈ Nat.toDigits 10 n, c.isDigit = true :=
    fun _ mem => Nat.isDigit_of_mem_toDigits (by decide) (by decide) mem
  have noSpace : ∀ c ∈ Nat.toDigits 10 n, isSpace c = false :=
    fun c mem => isSpace_of_isDigit (digit c mem)
  have plain : trimmed (Nat.toDigits 10 n) = Nat.toDigits 10 n := by
    refine (congrArg trimmed (List.append_nil _).symm).trans
      (trimmed_eq (List.forall_mem_nil _) (List.forall_mem_nil _) Nat.toDigits_ne_nil ?_ ?_)
    · exact fun c mem => noSpace c (List.mem_of_mem_head? mem)
    · exact fun c mem => noSpace c (List.mem_of_mem_getLast? mem)
  have value : number? (Nat.toDigits 10 n) = some (n : ℤ) := by
    rw [number?, plain]
    split
    · rename_i digits eq
      exact absurd (digit '-' (eq ▸ List.mem_cons_self)) (by decide)
    · rename_i digits eq
      exact absurd (digit '+' (eq ▸ List.mem_cons_self)) (by decide)
    · rw [if_pos ⟨Nat.toDigits_ne_nil, all_isDigit_toDigits n⟩, Nat.ofDigitChars_ten_toDigits]
  rw [toInt, value]
  exact if_pos (by omega)

/-! ### The address is found -/

namespace QFtpPI

section Digits

variable {β : Type} {k : Pattern.Continuation Char β} {r : β} {rest : QString}

/-- `(\d+)` takes a number. -/
theorem run_digitsGroup (n : ℕ) (next : ∀ c ∈ rest.head?, c.isDigit = false)
    (accepts : k (Nat.toDigits 10 n) [Nat.toDigits 10 n] rest = some r) :
    digitsGroup.run (Nat.toDigits 10 n ++ rest) k = some r := by
  rw [digitsGroup, Pattern.run_group]
  refine Pattern.run_many (List.length_pos_iff.mpr Nat.toDigits_ne_nil)
    (fun c mem => ?_) next accepts
  exact Nat.isDigit_of_mem_toDigits (by decide) (by decide) mem

end Digits

theorem head_comma (rest : QString) : ∀ c ∈ (',' :: rest).head?, c.isDigit = false := by
  rintro c ⟨⟩
  rfl

/-- The pattern at the address itself. -/
theorem run_addrPortPattern (h1 h2 h3 h4 : ℕ) (port : UInt16) {post : QString}
    (next : ∀ c ∈ post.head?, c.isDigit = false) :
    addrPortPattern.run ((PassiveAddress.pasv h1 h2 h3 h4 port).text ++ post)
        (fun _ captures _ => some captures) =
      some [Nat.toDigits 10 h1, Nat.toDigits 10 h2, Nat.toDigits 10 h3, Nat.toDigits 10 h4,
        Nat.toDigits 10 (port.toNat / 256), Nat.toDigits 10 (port.toNat % 256)] := by
  simp only [addrPortPattern, Pattern.inOrder, List.foldr_cons, List.foldr_nil, Pattern.run_seq,
    PassiveAddress.text, List.append_assoc, List.cons_append]
  refine run_digitsGroup h1 (head_comma _) ?_
  refine (Pattern.run_text [',']).trans ?_
  refine run_digitsGroup h2 (head_comma _) ?_
  refine (Pattern.run_text [',']).trans ?_
  refine run_digitsGroup h3 (head_comma _) ?_
  refine (Pattern.run_text [',']).trans ?_
  refine run_digitsGroup h4 (head_comma _) ?_
  refine (Pattern.run_text [',']).trans ?_
  refine run_digitsGroup _ (head_comma _) ?_
  refine (Pattern.run_text [',']).trans ?_
  refine run_digitsGroup _ next ?_
  rw [Pattern.run_text_nil]
  rfl

/-- No address begins in a text without a comma that does not end with a digit. -/
theorem addrPortPattern_none {β : Type} {k : Pattern.Continuation Char β} {rest s : QString}
    (nonempty : rest ≠ []) (noComma : ',' ∉ rest) (last : ∀ c ∈ rest.getLast?, c.isDigit = false) :
    addrPortPattern.run (rest ++ s) k = none := by
  by_contra found
  obtain ⟨r, found⟩ := Option.ne_none_iff_exists'.mp found
  obtain ⟨xs, cs, left, split, matched, -⟩ := Pattern.run_sound found
  simp only [addrPortPattern, Pattern.inOrder, List.foldr_cons] at matched
  obtain ⟨ys, _, first, zs, _, second, rfl, -⟩ := Pattern.matches_seq.mp matched
  obtain ⟨us, _, comma, vs, _, -, rfl, -⟩ := Pattern.matches_seq.mp second
  obtain ⟨rfl, -⟩ := Pattern.matches_text.mp comma
  obtain ⟨_, inside, -⟩ := Pattern.matches_group.mp first
  obtain ⟨⟨-, digits⟩, -⟩ := Pattern.matches_many.mp inside
  have ends : ¬ rest <+: ys := by
    intro inside
    obtain ⟨c, isLast⟩ := List.getLast?_isSome.mpr nonempty |> Option.isSome_iff_exists.mp
    exact absurd (digits c (inside.subset (List.mem_of_mem_getLast? isLast)))
      (ne_true_of_eq_false (last c isLast))
  rw [List.append_assoc, List.append_assoc] at split
  rcases List.append_eq_append_iff.mp split with ⟨as, rfl, -⟩ | ⟨as, rfl, tail⟩
  · exact ends (List.prefix_append _ _)
  · cases as with
    | nil => exact ends (by rw [List.append_nil])
    | cons c as =>
        obtain rfl : ',' = c := (List.cons.inj tail).1
        exact noComma (List.mem_append_right _ List.mem_cons_self)

theorem port_eq (port : UInt16) :
    ((toUInt (Nat.toDigits 10 (port.toNat / 256)) <<< 8) +
      toUInt (Nat.toDigits 10 (port.toNat % 256))).toUInt16 = port := by
  have bound := port.toNat_lt
  rw [toUInt_toDigits (by omega), toUInt_toDigits (by omega)]
  apply UInt16.toNat.inj
  simp
  omega

theorem indexOf_char {c : Char} {pre : QString} (apart : c ∉ pre) (s : QString) :
    indexOf [c] (pre ++ c :: s) = some pre.length := by
  induction pre with
  | nil =>
      rw [indexOf, List.nil_append, List.tails, List.findIdx?_cons]
      simp
  | cons d pre ih =>
      rw [List.mem_cons, not_or] at apart
      have here := ih apart.2
      rw [indexOf] at here ⊢
      rw [List.cons_append, List.tails_cons, List.findIdx?_cons, here]
      simp [apart.1]

/-- **The address is found**, whatever stands around it. -/
theorem dataAddress_passive {address : PassiveAddress} {pre post : QString} (peerAddress : QString)
    (apart : address.Apart pre post) :
    dataAddress peerAddress address.code (pre ++ (address.text ++ post)) =
      .found (address.host peerAddress) address.port := by
  cases address with
  | pasv h1 h2 h3 h4 port =>
      obtain ⟨⟨noComma, last⟩, next⟩ := apart
      have found := Pattern.search_append (run_addrPortPattern h1 h2 h3 h4 port next)
        fun rest nonempty suffix => addrPortPattern_none nonempty
          (fun mem => noComma (suffix.subset mem)) fun c mem => last c (by
            obtain ⟨before, rfl⟩ := suffix
            rwa [List.getLast?_append_of_ne_nil _ nonempty])
      rw [dataAddress, PassiveAddress.code, if_pos rfl, pasvAddress, found]
      simp only [port_eq]
      rfl
  | epsv delimiter port noDigit =>
      have digits : delimiter ∉ Nat.toDigits 10 port.toNat := fun mem =>
        absurd (Nat.isDigit_of_mem_toDigits (by decide) (by decide) mem)
          (ne_true_of_eq_false noDigit)
      have bound := port.toNat_lt
      have parts : (((delimiter :: delimiter :: delimiter ::
          (Nat.toDigits 10 port.toNat ++ delimiter :: post)).splitOn delimiter))[3]? =
            some (Nat.toDigits 10 port.toNat) := by
        rw [← List.nil_append (delimiter :: delimiter :: _),
          List.splitOn_append_cons_self_of_not_mem List.not_mem_nil,
          ← List.nil_append (delimiter :: delimiter :: _),
          List.splitOn_append_cons_self_of_not_mem List.not_mem_nil,
          ← List.nil_append (delimiter :: (_ ++ _)),
          List.splitOn_append_cons_self_of_not_mem List.not_mem_nil,
          List.splitOn_append_cons_self_of_not_mem digits]
        rfl
      have opens : pre ++ ((PassiveAddress.epsv delimiter port noDigit).text ++ post) =
          pre ++ '(' :: (delimiter :: delimiter :: delimiter ::
            (Nat.toDigits 10 port.toNat ++ delimiter :: post)) := by
        rw [PassiveAddress.text]
        simp only [List.cons_append, List.append_assoc, List.nil_append]
      have number : UInt16.ofInt (toInt (Nat.toDigits 10 port.toNat)) = port := by
        rw [toInt_toDigits (by omega), UInt16.ofInt, Int.emod_eq_of_lt (by omega) (by omega),
          Int.toNat_natCast, UInt16.ofNat_toNat]
      rw [dataAddress, PassiveAddress.code, if_neg (by decide), if_pos rfl, opens, epsvAddress,
        indexOf_char apart]
      simp only [List.drop_append, Nat.add_sub_cancel_left, List.drop_of_length_le (Nat.le_succ _),
        List.nil_append, List.drop_succ_cons, List.drop_zero, parts, number]
      rfl

theorem dataAddress_passive_demo :
    dataAddress (str "10.0.0.9") 227 (str "Entering Passive Mode (10,0,0,7,19,137).") =
        .found (str "10.0.0.7") 5001 ∧
      dataAddress (str "::1") 229 (str "Extended Passive Mode OK (|||10982|)") =
        .found (str "::1") 10982 :=
  ⟨@dataAddress_passive (.pasv 10 0 0 7 5001) (str "Entering Passive Mode (") (str ").") _
      ⟨by simp [str], by simp [str]⟩,
    @dataAddress_passive (.epsv '|' 10982 rfl) (str "Extended Passive Mode OK ") (str ")") _
      (show '(' ∉ str "Extended Passive Mode OK " by simp [str])⟩

end QFtpPI

end MediaUpdater
