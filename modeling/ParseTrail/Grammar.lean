import ParseTrail.Config
import ParseTrail.Cursor.Request
import ParseTrail.Parser
import ParseTrail.Report

/-!
# Grammars

A grammar gives the rules and the hand-written procedures that parsers refer to.

A procedure is a program of steps on the cursor and the trail, each of which hands its answer to
the rest of the program. It may run parsers, and it may parse anew on the same cursor.
-/

namespace ParseTrail

/-- A hand-written program that matches something. -/
inductive Procedure (κ α : Type) where
  /-- Matches, with a value. -/
  | done (v : Value α)
  /-- Fails. -/
  | fail (f : Failure)
  /-- Has no answer. -/
  | fault (cause : Fault)
  /-- Asks how deep parsers are nested. -/
  | depth (next : Nat → Procedure κ α)
  /-- Asks for the trail so far. -/
  | trail (next : Trail → Procedure κ α)
  /-- Works with the cursor. -/
  | cursor (request : Cursor.Request) (next : request.Reply → Procedure κ α)
  /-- Runs a parser. -/
  | attempt (p : Parser κ α) (next : Except Failure (Value α) → Procedure κ α)
  /-- Records a failed attempt from `offset` to the cursor, and asks for its failure. -/
  | reject (offset : Nat) (label : String) (next : Failure → Procedure κ α)
  /-- Runs a procedure in a scope of the cursor, and returns to where it began unless it matches
  with an accepted value. -/
  | speculate (accept : Value α → Bool) (body : Procedure κ α)
      (next : Except Failure (Value α) → Procedure κ α)
  /-- Parses anew at the cursor, consuming what matches. -/
  | parse (p : Parser κ α) (config : Config)
      (next : Except ParseError (Value α) → Procedure κ α)
  /-- Parses anew at the cursor, consuming nothing. -/
  | lookahead (p : Parser κ α) (next : Except ParseError (Value α) → Procedure κ α)
  /-- Parses another text by a rule. -/
  | parseText (text : String) (rule : Nat)
      (next : Except ParseError (Value α) → Procedure κ α)
  /-- Runs a procedure on the same cursor with a trail of its own. -/
  | apart (config : Config) (body : Procedure κ α)
      (next : Except Failure (Value α) → Trail → Procedure κ α)

/-- What a rule stands for. -/
inductive Rule (κ α : Type) where
  /-- A parser. -/
  | defined (p : Parser κ α)
  /-- Nothing yet: the definition is still being made. -/
  | pending
  /-- Nothing any longer. -/
  | dropped

/-- The rules and the hand-written procedures that parsers refer to. -/
structure Grammar (κ α : Type) where
  /-- The rules by number. -/
  rules : Nat → Rule κ α
  /-- The procedures by key. -/
  procedures : κ → Procedure κ α

end ParseTrail
