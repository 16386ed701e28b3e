import Chip8.Arguments.Basic

/-!
# Kinds of arguments

Before anything is interpreted every argument is classified by its form: the first
bare `--` separates options from plain arguments, an option may be shortened and have
a value attached, and text that looks like a negative number or holds a blank is
plain.
-/

namespace Chip8

/-- An argument by its form. -/
inductive Token where
  /-- A file or a value. -/
  | plain (text : String)
  /-- The separator; all that follows it is plain. -/
  | separator
  /-- An option, whether it is written with one dash, and the value attached to it. -/
  | switch (s : Switch) (short : Bool) (attached : Option String)
  /-- Something with the form of an option that is none. -/
  | stray (text : String)
deriving DecidableEq, Repr

namespace Token

/-- The part before the first equals sign, and the part after it if there is one. -/
def splitValue : List Char → List Char × Option (List Char)
  | [] => ([], none)
  | '=' :: rest => ([], some rest)
  | c :: rest => (c :: (splitValue rest).1, (splitValue rest).2)

/-- The spellings that begin with given text, with their options. -/
def completions (beginning : List Char) : List (String × Switch) :=
  Switch.table.filter fun e => beginning.isPrefixOf e.1.toList

/-- Whether a spelling has a single dash. -/
def isShort (name : List Char) : Bool :=
  match name with
  | '-' :: '-' :: _ => false
  | _ => true

/-- Text that begins with a dash and is not an option by any spelling. -/
def ofOther (text : String) : Token :=
  if Integer.looksNegative text.toList || text.toList.contains ' ' then .plain text
  else .stray text

/-- An argument that begins with two dashes and is not a spelling itself. -/
def ofLong (text : String) : Except ArgumentError Token :=
  let parts := splitValue text.toList
  match completions parts.1 with
  | [] => .ok (ofOther text)
  | [(_, s)] => .ok (.switch s false (parts.2.map String.ofList))
  | several => .error (.ambiguous text (several.map Prod.fst))

/-- An argument that begins with one dash and is not a spelling itself: a letter may
have more letters attached. -/
def ofShort (text : String) : Token :=
  match Switch.ofSpelling? (String.ofList (text.toList.take 2)) with
  | some s => .switch s true (some (String.ofList (text.toList.drop 2)))
  | none => ofOther text

/-- An argument with a value attached to a full spelling, if it is one. -/
def ofAttached? (text : String) : Option Token :=
  match splitValue text.toList with
  | (name, some value) =>
      (Switch.ofSpelling? (String.ofList name)).map fun s =>
        .switch s (isShort name) (some (String.ofList value))
  | (_, none) => none

/-- The form of an argument. -/
def ofText (text : String) : Except ArgumentError Token :=
  match text.toList with
  | '-' :: second :: rest =>
      match Switch.ofSpelling? text with
      | some s => .ok (.switch s (isShort ('-' :: second :: rest)) none)
      | none =>
          match ofAttached? text with
          | some token => .ok token
          | none => if second = '-' then ofLong text else .ok (ofShort text)
  | _ => .ok (.plain text)

/-- The forms of all arguments. -/
def ofArguments : List String → Except ArgumentError (List Token)
  | [] => .ok []
  | "--" :: rest => .ok (.separator :: rest.map .plain)
  | text :: rest =>
      match ofText text with
      | .error e => .error e
      | .ok token =>
          match ofArguments rest with
          | .error e => .error e
          | .ok tokens => .ok (token :: tokens)

end Token

end Chip8
