/-
This file is about the replies of the server to a client that sends several
commands over one connection.

A connection is a stream of bytes; the client's lines reach the server in whatever
pieces `read` returns them. `server_handle_client` takes every piece for one
command. It looks at the first bytes of the piece, answers once, and forgets the
rest. So the replies are right if every read returns exactly one line. A read that
returns two lines leaves one of them without a reply, and a line that comes in two
pieces is answered twice.
-/

import Mathlib.Data.List.Chain
import TinyDb.SyntaxErrors

namespace TinyDb

open List Option

variable {buffer : List UInt8}

/-! ### The loop of the server -/

/-- The size of the buffer of `server_handle_client`. -/
def serverBufferSize : Nat := 8192

/-- The text of the reply to a query. The text with the message of the parser is cut to the size of
its buffer; a missing message is printed as `(null)`. -/
def QueryReply.text : QueryReply → List UInt8
  | emptyQuery => ascii "ERROR empty query\n"
  | noParser => ascii "ERROR failed to create parser\n"
  | parseError message =>
    (ascii "ERROR parse error: " ++ (ascii (message.getD "(null)") ++ ascii "\n")).take 255
  | queryOk => ascii "Query OK\n"
  | okRows => ascii "OK 0 rows\n"

/-- One pass of the loop of `server_handle_client` over the bytes of a read: the reply, and whether
the loop goes on. -/
noncomputable def serverHandleRead (buffer : List UInt8) : Option (List UInt8 × Bool) :=
  if (ascii "PING").isPrefixOf buffer then some (ascii "PONG\n", true)
  else if (ascii "SHUTDOWN").isPrefixOf buffer then some (ascii "OK shutdown\n", false)
  else if (ascii "QUERY:").isPrefixOf buffer then do
    let reply ← queryReply (buffer.drop 6)
    return (reply.text, true)
  else some (ascii "ERROR unknown command\n", true)

/-- `server_handle_client` on what the reads return: the replies it writes and, if it returns, its
result. -/
noncomputable def serverHandleClient : List (List UInt8) → List (List UInt8) × Option Int32
  | [] => ([], some 0)
  | buffer :: reads =>
    match serverHandleRead buffer with
    | none => ([], none)
    | some (reply, false) => ([reply], some 1)
    | some (reply, true) =>
      let (replies, result) := serverHandleClient reads
      (reply :: replies, result)

/-! ### Commands -/

/-- A command of the protocol. The text of a query is on one line. -/
inductive Command
  | ping
  | shutdown
  | query (sql : List UInt8) (oneLine : char '\n' ∉ sql)

variable {command : Command} {commands : List Command}

namespace Command

/-- The line of a command without its end. -/
def text : Command → List UInt8
  | ping => ascii "PING"
  | shutdown => ascii "SHUTDOWN"
  | query sql _ => ascii "QUERY:" ++ sql

/-- The line of a command. -/
def line (command : Command) : List UInt8 := command.text ++ [char '\n']

/-- The reply to a command; there is none to a query on which the parser does not return. -/
noncomputable def reply : Command → Option (List UInt8)
  | ping => some (ascii "PONG\n")
  | shutdown => some (ascii "OK shutdown\n")
  | query sql _ => (queryReply sql).map QueryReply.text

/-- The parser returns on the text of a query. -/
def Returns : Command → Prop
  | query sql _ => (statementCourse (tokensOf (trimQuery sql))).isHangs = false
  | _ => True

end Command

/-- What a client sends. -/
def stream (commands : List Command) : List UInt8 := commands.flatMap Command.line

/-- The commands up to the first `SHUTDOWN`. -/
def served : List Command → List Command
  | [] => []
  | .shutdown :: _ => [.shutdown]
  | .ping :: commands => .ping :: served commands
  | .query sql oneLine :: commands => .query sql oneLine :: served commands

/-- The reads return the bytes, at least one and at most a buffer full at a time. -/
structure SplitInto (bytes : List UInt8) (reads : List (List UInt8)) : Prop where
  whole : reads.flatten = bytes
  nonempty : ∀ buffer ∈ reads, buffer ≠ []
  short : ∀ buffer ∈ reads, buffer.length ≤ serverBufferSize - 1

/-- The server writes one reply to every command up to the first `SHUTDOWN`, in their order. -/
def RepliesRight (commands : List Command) (reads : List (List UInt8)) : Prop :=
  (serverHandleClient reads).1.map some = (served commands).map Command.reply

/-- Up to the first `SHUTDOWN` every read returns one line, and the read that has the `SHUTDOWN`
starts with it. -/
inductive OneLinePerRead : List Command → List (List UInt8) → Prop
  | done : OneLinePerRead [] []
  | line {command : Command} {commands : List Command} {reads : List (List UInt8)}
      (other : command ≠ .shutdown) (rest : OneLinePerRead commands reads) :
      OneLinePerRead (command :: commands) (command.line :: reads)
  | shutdown {commands : List Command} {buffer : List UInt8} {reads : List (List UInt8)}
      (starts : ascii "SHUTDOWN" <+: buffer) :
      OneLinePerRead (.shutdown :: commands) (buffer :: reads)

/-! ### One line -/

theorem trimQuery_newline (sql : List UInt8) : trimQuery (sql ++ [char '\n']) = trimQuery sql := by
  rw [trimQuery, reverse_append, reverse_singleton, singleton_append,
    dropWhile_cons_of_pos (by decide), trimQuery]

theorem queryReply_newline (sql : List UInt8) :
    queryReply (sql ++ [char '\n']) = queryReply sql := by
  rw [queryReply, trimQuery_newline, ← queryReply]

theorem serverHandleRead_shutdown (starts : ascii "SHUTDOWN" <+: buffer) :
    serverHandleRead buffer = some (ascii "OK shutdown\n", false) := by
  obtain ⟨rest, rfl⟩ := starts
  rfl

theorem serverHandleRead_query (sql : List UInt8) :
    serverHandleRead (ascii "QUERY:" ++ sql) =
      (queryReply sql).map fun reply => (reply.text, true) := by
  have taken : serverHandleRead (ascii "QUERY:" ++ sql) =
      (queryReply sql).bind fun reply => some (reply.text, true) := rfl
  rw [map_eq_bind]
  rfl

/-- A read of one line is answered with the reply to the command. -/
theorem serverHandleRead_line (other : command ≠ .shutdown) :
    serverHandleRead command.line = command.reply.map fun reply => (reply, true) := by
  cases command with
  | ping => rfl
  | shutdown => exact absurd rfl other
  | query sql oneLine =>
    rw [Command.line, Command.text, append_assoc, serverHandleRead_query, queryReply_newline,
      Command.reply, Option.map_map]
    rfl

theorem Command.reply_isSome (command : Command) : command.reply.isSome ↔ command.Returns := by
  cases command with
  | ping => exact iff_of_true rfl trivial
  | shutdown => exact iff_of_true rfl trivial
  | query sql oneLine =>
    rw [Command.reply, Command.Returns, ← Bool.not_eq_true', ← parseText_isSome]
    unfold queryReply
    by_cases empty : (trimQuery sql).isEmpty = true
    · rw [List.isEmpty_iff.mp empty]
      exact iff_of_true rfl rfl
    · simp only [empty]
      rcases parseText (trimQuery sql) with _ | ⟨_ | node, _ | parser⟩ <;> rfl

/-- If every read returns one line, the replies are right as long as the parser returns. -/
theorem OneLinePerRead.repliesRight {reads : List (List UInt8)}
    (oneLine : OneLinePerRead commands reads)
    (returns : ∀ command ∈ served commands, command.Returns) : RepliesRight commands reads := by
  induction oneLine with
  | done => rfl
  | @line command commands reads other _ inductionHypothesis =>
    have unserved : served (command :: commands) = command :: served commands := by
      cases command with
      | ping => rfl
      | shutdown => exact absurd rfl other
      | query sql oneLine => rfl
    rw [unserved] at returns
    obtain ⟨reply, isReply⟩ := isSome_iff_exists.mp
      ((Command.reply_isSome _).mpr (returns _ mem_cons_self))
    have rest := inductionHypothesis fun other member =>
      returns _ (mem_cons_of_mem _ member)
    have handled := serverHandleRead_line other
    rw [isReply, map_some] at handled
    rw [RepliesRight, serverHandleClient, handled, unserved, map_cons, map_cons, isReply]
    exact congrArg _ rest
  | shutdown starts =>
    rw [RepliesRight, serverHandleClient, serverHandleRead_shutdown starts]
    rfl

/-! ### More or less than one line -/

/-- The read starts with the word of a command. -/
def startsCommand (buffer : List UInt8) : Bool :=
  (ascii "PING").isPrefixOf buffer || (ascii "SHUTDOWN").isPrefixOf buffer ||
    (ascii "QUERY:").isPrefixOf buffer

/-- No read that starts inside a line starts with the word of a command. -/
def WordsStartLines (reads : List (List UInt8)) : Prop :=
  reads.IsChain fun before buffer =>
    before.getLast? = some (char '\n') ∨ startsCommand buffer = false

theorem QueryReply.text_ne_unknown (reply : QueryReply) :
    reply.text ≠ ascii "ERROR unknown command\n" := by
  intro same
  cases reply with
  | emptyQuery => exact absurd same (by decide)
  | noParser => exact absurd same (by decide)
  | parseError message =>
    have seventh : some (char 'p') = some (char 'u') := congrArg (·[6]?) same
    exact absurd seventh (by decide)
  | queryOk => exact absurd same (by decide)
  | okRows => exact absurd same (by decide)

theorem QueryReply.text_ne_shutdown (reply : QueryReply) :
    reply.text ≠ ascii "OK shutdown\n" := by
  intro same
  cases reply with
  | emptyQuery => exact absurd same (by decide)
  | noParser => exact absurd same (by decide)
  | parseError message =>
    have first : some (char 'E') = some (char 'O') := congrArg (·[0]?) same
    exact absurd first (by decide)
  | queryOk => exact absurd same (by decide)
  | okRows => exact absurd same (by decide)

theorem Command.reply_ne_unknown (command : Command) :
    command.reply ≠ some (ascii "ERROR unknown command\n") := by
  intro same
  cases command with
  | ping => exact absurd (Option.some.inj same) (by decide)
  | shutdown => exact absurd (Option.some.inj same) (by decide)
  | query sql oneLine =>
    obtain ⟨reply, -, text⟩ := map_eq_some_iff.mp same
    exact reply.text_ne_unknown text

theorem Command.eq_shutdown (same : command.reply = some (ascii "OK shutdown\n")) :
    command = .shutdown := by
  cases command with
  | ping => exact absurd (Option.some.inj same) (by decide)
  | shutdown => rfl
  | query sql oneLine =>
    obtain ⟨reply, -, text⟩ := map_eq_some_iff.mp same
    exact absurd text reply.text_ne_shutdown

/-- A read that starts with no command is answered as unknown. -/
theorem serverHandleRead_unknown (unknown : startsCommand buffer = false) :
    serverHandleRead buffer = some (ascii "ERROR unknown command\n", true) := by
  simp only [startsCommand, Bool.or_eq_false_iff] at unknown
  obtain ⟨⟨ping, shutdown⟩, query⟩ := unknown
  simp only [serverHandleRead, ping, shutdown, query, Bool.false_eq_true, if_false]

/-- The cases of a read that is answered. -/
theorem serverHandleRead_cases {reply : List UInt8} {goesOn : Bool}
    (handled : serverHandleRead buffer = some (reply, goesOn)) :
    if goesOn then reply ≠ ascii "OK shutdown\n"
    else reply = ascii "OK shutdown\n" ∧ ascii "SHUTDOWN" <+: buffer := by
  unfold serverHandleRead at handled
  split at handled
  · obtain ⟨rfl, rfl⟩ := Prod.mk.inj (Option.some.inj handled)
    exact (by decide : ascii "PONG\n" ≠ ascii "OK shutdown\n")
  · split at handled
    · rename_i starts
      cases handled
      exact ⟨rfl, isPrefixOf_iff_prefix.mp starts⟩
    · split at handled
      · obtain ⟨query, -, same⟩ := bind_eq_some_iff.mp handled
        cases same
        exact query.text_ne_shutdown
      · obtain ⟨rfl, rfl⟩ := Prod.mk.inj (Option.some.inj handled)
        exact (by decide : ascii "ERROR unknown command\n" ≠ ascii "OK shutdown\n")

theorem Command.newline_notMem_text (command : Command) : char '\n' ∉ command.text := by
  cases command with
  | ping => decide
  | shutdown => decide
  | query sql oneLine =>
    rw [Command.text, mem_append, not_or]
    exact ⟨by decide, oneLine⟩

/-- A part of the stream that ends at the end of a line is made of whole lines. -/
theorem lines_of_prefix {front : List UInt8} (isFront : front <+: stream commands)
    (ends : front.getLast? = some (char '\n')) :
    ∃ done rest, commands = done ++ rest ∧ done ≠ [] ∧ front = stream done := by
  induction commands generalizing front with
  | nil =>
    rw [prefix_nil.mp isFront] at ends
    cases ends
  | cons command commands inductionHypothesis =>
    have shape : stream (command :: commands) = command.text ++ char '\n' :: stream commands := by
      rw [stream, flatMap_cons, Command.line, append_assoc]
      rfl
    obtain ⟨behind, whole⟩ := isFront
    rw [shape] at whole
    rcases append_eq_append_iff.mp whole with ⟨more, text, -⟩ | ⟨more, rfl, line⟩
    · refine absurd ?_ command.newline_notMem_text
      rw [text]
      exact mem_append_left _ (mem_of_getLast? ends)
    · cases more with
      | nil =>
        rw [append_nil] at ends
        exact absurd (mem_of_getLast? ends) command.newline_notMem_text
      | cons newline more =>
        obtain ⟨rfl, rest⟩ := List.cons.inj line
        cases more with
        | nil => exact ⟨[command], commands, rfl, cons_ne_nil _ _, (append_nil _).symm⟩
        | cons first more =>
          rw [getLast?_append_cons] at ends
          obtain ⟨done, others, rfl, -, same⟩ := inductionHypothesis ⟨behind, rest.symm⟩ ends
          refine ⟨command :: done, others, rfl, cons_ne_nil _ _, ?_⟩
          rw [same, stream, stream, flatMap_cons, Command.line, append_assoc]
          rfl

section Groups

variable {commands : List Command} {buffer reply : List UInt8} {reads : List (List UInt8)}

theorem serverHandleClient_goesOn (handled : serverHandleRead buffer = some (reply, true)) :
    (serverHandleClient (buffer :: reads)).1 = reply :: (serverHandleClient reads).1 := by
  rw [serverHandleClient, handled]

/-- If no reply reports an unknown command, a read after which the loop goes on returned whole
lines. -/
theorem wholeLines (split : SplitInto (stream commands) (buffer :: reads))
    (words : WordsStartLines (buffer :: reads))
    (known : ascii "ERROR unknown command\n" ∉ (serverHandleClient (buffer :: reads)).1)
    (handled : serverHandleRead buffer = some (reply, true)) :
    ∃ done rest, commands = done ++ rest ∧ done ≠ [] ∧ buffer = stream done ∧
      SplitInto (stream rest) reads := by
  have whole : buffer ++ reads.flatten = stream commands := split.whole
  obtain ⟨done, rest, rfl, nonempty, same⟩ : ∃ done rest, commands = done ++ rest ∧ done ≠ [] ∧
      buffer = stream done := by
    cases reads with
    | nil =>
      refine ⟨commands, [], (append_nil _).symm, ?_, ?_⟩
      · rintro rfl
        exact split.nonempty _ mem_cons_self (append_eq_nil_iff.mp whole).1
      · rw [← whole]
        exact (append_nil _).symm
    | cons next reads =>
      refine lines_of_prefix ⟨_, whole⟩ ?_
      refine (isChain_cons_cons.mp words).1.resolve_right fun unknown => known ?_
      rw [serverHandleClient_goesOn handled,
        serverHandleClient_goesOn (serverHandleRead_unknown unknown)]
      exact mem_cons_of_mem _ mem_cons_self
  refine ⟨done, rest, rfl, nonempty, same, ?_, fun other member => ?_, fun other member => ?_⟩
  · rw [same, stream, stream, flatMap_append] at whole
    exact append_cancel_left whole
  · exact split.nonempty _ (mem_cons_of_mem _ member)
  · exact split.short _ (mem_cons_of_mem _ member)

/-- There are no more replies than commands. -/
theorem replies_length_le
    (split : SplitInto (stream commands) reads) (words : WordsStartLines reads)
    (known : ascii "ERROR unknown command\n" ∉ (serverHandleClient reads).1) :
    (serverHandleClient reads).1.length ≤ commands.length := by
  induction reads generalizing commands with
  | nil => exact Nat.zero_le _
  | cons buffer reads inductionHypothesis =>
    have positive : 0 < commands.length := by
      refine length_pos_iff.mpr ?_
      rintro rfl
      exact split.nonempty _ mem_cons_self (append_eq_nil_iff.mp split.whole).1
    rcases handled : serverHandleRead buffer with _ | ⟨reply, _ | _⟩
    · rw [serverHandleClient, handled]
      exact Nat.zero_le _
    · rw [serverHandleClient, handled]
      exact positive
    · obtain ⟨done, rest, rfl, nonempty, -, splitRest⟩ := wholeLines split words known handled
      rw [serverHandleClient_goesOn handled] at known ⊢
      have fewer := inductionHypothesis splitRest words.tail
        fun member => known (mem_cons_of_mem _ member)
      have one := length_pos_iff.mpr nonempty
      rw [length_cons, length_append]
      omega

theorem served_eq (last : Command.shutdown ∉ commands.dropLast) : served commands = commands := by
  induction commands with
  | nil => rfl
  | cons command commands inductionHypothesis =>
    cases commands with
    | nil => cases command <;> rfl
    | cons next commands =>
      rw [dropLast_cons_cons, mem_cons, not_or] at last
      have rest := inductionHypothesis last.2
      cases command with
      | ping => rw [served, rest]
      | shutdown => exact absurd rfl last.1
      | query sql oneLine => rw [served, rest]

/-- Right replies come from reads of one line each. -/
theorem OneLinePerRead.of_replies (split : SplitInto (stream commands) reads)
    (words : WordsStartLines reads) (last : Command.shutdown ∉ commands.dropLast)
    (right : (serverHandleClient reads).1.map some = commands.map Command.reply) :
    OneLinePerRead commands reads := by
  have known : ascii "ERROR unknown command\n" ∉ (serverHandleClient reads).1 := by
    intro member
    have listed := List.mem_map_of_mem (f := some) member
    rw [right] at listed
    obtain ⟨command, -, unknown⟩ := List.mem_map.mp listed
    exact command.reply_ne_unknown unknown
  induction reads generalizing commands with
  | nil =>
    obtain rfl : commands = [] := map_eq_nil_iff.mp right.symm
    exact .done
  | cons buffer reads inductionHypothesis =>
    cases commands with
    | nil =>
      exact absurd (append_eq_nil_iff.mp split.whole).1
        (split.nonempty _ mem_cons_self)
    | cons command commands =>
      rcases handled : serverHandleRead buffer with _ | ⟨reply, _ | _⟩
      · rw [serverHandleClient, handled] at right
        cases right
      · obtain ⟨rfl, starts⟩ : reply = ascii "OK shutdown\n" ∧ ascii "SHUTDOWN" <+: buffer :=
          serverHandleRead_cases handled
        rw [serverHandleClient, handled] at right
        obtain rfl := Command.eq_shutdown (List.cons.inj right).1.symm
        exact .shutdown starts
      · obtain ⟨done, rest, same, nonempty, rfl, splitRest⟩ := wholeLines split words known handled
        rw [serverHandleClient_goesOn handled] at known right
        obtain ⟨first, right⟩ := List.cons.inj right
        have knownRest := fun member => known (mem_cons_of_mem _ member)
        -- with more than one line in the read too few lines are left for the replies
        have fewer := replies_length_le splitRest words.tail knownRest
        have lengths := congrArg List.length right
        rw [length_map, length_map] at lengths
        obtain ⟨start, more, rfl⟩ := exists_cons_of_ne_nil nonempty
        obtain ⟨rfl, behind⟩ : command = start ∧ commands = more ++ rest := List.cons.inj same
        have alone : more = [] := by
          have total := congrArg List.length behind
          rw [length_append] at total
          exact eq_nil_of_length_eq_zero (by omega)
        rw [alone, nil_append] at behind
        rw [← behind] at splitRest
        have single : stream (command :: more) = command.line := by
          rw [alone]
          exact append_nil _
        rw [single]
        refine .line ?_ (inductionHypothesis splitRest words.tail ?_ right knownRest)
        · rintro rfl
          exact serverHandleRead_cases handled (Option.some.inj first)
        · intro member
          refine last ?_
          cases commands with
          | nil => cases member
          | cons next commands =>
            exact mem_cons_of_mem _ member

end Groups

/-- The replies are right if every read returns one line and the parser returns on every query. If
no command follows a `SHUTDOWN` and no read starts inside a line with the word of a command, they
are right only then. -/
theorem replies_right_of_lines (commands : List Command) (reads : List (List UInt8))
    (split : SplitInto (stream commands) reads) :
    (OneLinePerRead commands reads ∧ (∀ command ∈ served commands, command.Returns) →
      RepliesRight commands reads) ∧
    (Command.shutdown ∉ commands.dropLast → WordsStartLines reads →
      (RepliesRight commands reads ↔
        OneLinePerRead commands reads ∧ ∀ command ∈ served commands, command.Returns)) := by
  refine ⟨fun ⟨oneLine, returns⟩ => oneLine.repliesRight returns, fun last words => ?_⟩
  refine ⟨fun right => ⟨?_, fun command member => ?_⟩,
    fun ⟨oneLine, returns⟩ => oneLine.repliesRight returns⟩
  · rw [RepliesRight, served_eq last] at right
    exact OneLinePerRead.of_replies split words last right
  · have replied := List.mem_map_of_mem (f := Command.reply) member
    rw [← right] at replied
    obtain ⟨reply, -, isReply⟩ := List.mem_map.mp replied
    rw [← Command.reply_isSome, ← isReply]
    rfl

/-- The commands of a session: a query and a `SHUTDOWN`. -/
def shortSession : List Command := [.query (ascii "BEGIN;") (by decide), .shutdown]

theorem replies_right_of_two_reads :
    SplitInto (stream shortSession) [ascii "QUERY:BEGIN;\n", ascii "SHUTDOWN\n"] ∧
      RepliesRight shortSession [ascii "QUERY:BEGIN;\n", ascii "SHUTDOWN\n"] := by
  have split : SplitInto (stream shortSession) [ascii "QUERY:BEGIN;\n", ascii "SHUTDOWN\n"] :=
    ⟨rfl, by decide, by decide⟩
  refine ⟨split, (replies_right_of_lines _ _ split).1 ⟨.line nofun (.shutdown ⟨_, rfl⟩), ?_⟩⟩
  intro command member
  rcases mem_cons.mp member with rfl | member
  · exact (by decide +kernel :
      (statementCourse (tokensOf (trimQuery (ascii "BEGIN;")))).isHangs = false)
  · obtain rfl := mem_singleton.mp member
    exact trivial

/-- Two commands in one read get one reply. -/
theorem second_ping_unanswered : SplitInto (stream [.ping, .ping]) [ascii "PING\nPING\n"] ∧
    (serverHandleClient [ascii "PING\nPING\n"]).1 = [ascii "PONG\n"] ∧
    ¬RepliesRight [.ping, .ping] [ascii "PING\nPING\n"] := by
  have one : (serverHandleClient [ascii "PING\nPING\n"]).1 = [ascii "PONG\n"] := rfl
  refine ⟨⟨rfl, by decide, by decide⟩, one, fun right => ?_⟩
  exact absurd (congrArg List.length right) (by decide)

end TinyDb
