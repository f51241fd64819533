import ParseTrail.Text.Utf8

/-!
# Byte sources

A source hands out bytes until it ends. It may also fail, or report an end that is not final. What
it will do is a list of events. Bytes are decoded one character at a time, so that nothing is
taken from the source before it is needed.
-/

namespace ParseTrail

/-- What kind of error a source reports. -/
inductive ErrorKind where
  | brokenPipe | interrupted | invalidData | invalidInput | timedOut | unexpectedEof | other
  deriving DecidableEq, Repr

/-- An error of a source, or of moving within it. -/
structure SourceError where
  /-- The kind of error. -/
  kind : ErrorKind
  /-- The wording of the error. -/
  message : String
  deriving DecidableEq, Repr

/-- What a source does next. -/
inductive SourceEvent where
  /-- It hands out bytes. -/
  | data (bytes : List UInt8)
  /-- It fails once. -/
  | error (e : SourceError)
  /-- It reports its end once, although more may follow. -/
  | pause
  deriving Repr

/-- What a source does, first to last. After the last event it has ended. -/
abbrev Source := List SourceEvent

/-- What taking a character from a source gives. -/
inductive Fetched where
  /-- A whole character. -/
  | character (c : Char)
  /-- The end of the source. -/
  | ended
  /-- Bytes that encode no character. -/
  | malformed
  /-- The source failed. -/
  | error (e : SourceError)
  deriving DecidableEq, Repr

namespace Source

/-- The next byte of a source, or its end. An interruption is tried again. -/
def nextByte : Source → Except SourceError (Option UInt8) × Source
  | [] => (.ok none, [])
  | .data [] :: rest => nextByte rest
  | .data (byte :: bytes) :: rest => (.ok (some byte), .data bytes :: rest)
  | .error e :: rest => if e.kind = .interrupted then nextByte rest else (.error e, rest)
  | .pause :: rest => (.ok none, rest)

/-- Takes `n` more bytes of a sequence that begins with `bytes`, and decodes it. A byte that
does not continue the sequence is taken too. -/
def finishCharacter : Nat → List UInt8 → Source → Fetched × Source
  | 0, bytes, src =>
    match Text.Utf8.decode? bytes with
    | some c => (.character c, src)
    | none => (.malformed, src)
  | n + 1, bytes, src =>
    match src.nextByte with
    | (.error e, rest) => (.error e, rest)
    | (.ok none, rest) => (.malformed, rest)
    | (.ok (some byte), rest) =>
      if Text.Utf8.isContinuation byte then finishCharacter n (bytes ++ [byte]) rest
      else (.malformed, rest)

/-- Takes the next character of a source. -/
def nextCharacter (src : Source) : Fetched × Source :=
  match src.nextByte with
  | (.error e, rest) => (.error e, rest)
  | (.ok none, rest) => (.ended, rest)
  | (.ok (some byte), rest) => finishCharacter (Text.Utf8.sequenceLength byte - 1) [byte] rest

/-- How many bytes and other events a source still has; no more characters can be taken. -/
def size : Source → Nat
  | [] => 0
  | .data bytes :: rest => bytes.length + 1 + size rest
  | _ :: rest => size rest + 1

end Source

end ParseTrail
