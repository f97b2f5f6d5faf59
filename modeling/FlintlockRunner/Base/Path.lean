import FlintlockRunner.Base.Strings

/-!
# Go's paths and path patterns

`path/filepath` on Unix, where a path is cleaned lexically, and the part of
`path.Match` that tells a well-formed pattern from a malformed one.
-/

namespace Path

open Strings

/-! ## Lexical cleaning -/

/-- One element of a path against the cleaned ones before it, the last first. -/
def push (rooted : Bool) (stack : List (List Char)) (elem : List Char) : List (List Char) :=
  if elem = [] ∨ elem = ['.'] then stack
  else if elem = ['.', '.'] then
    match stack with
    | [] => if rooted then [] else [elem]
    | top :: below => if top = ['.', '.'] then elem :: stack else below
  else elem :: stack

variable (path : String)

/-- `filepath.Clean`. -/
def clean : String :=
  let rooted := startsWith path "/"
  let elems := ((split '/' path.toList).foldl (push rooted) []).reverse
  let body := "/".intercalate (elems.map String.ofList)
  if rooted then "/" ++ body else if elems = [] then "." else body

/-- `filepath.IsAbs`. -/
def isAbs : Bool := startsWith path "/"

/-- `filepath.Dir`. -/
def dir : String :=
  match cutLast '/' path.toList with
  | none => clean ""
  | some (before, _) => clean (String.ofList (before ++ ['/']))

/-- `filepath.Join` of two elements. -/
def join (base elem : String) : String :=
  if base = "" then (if elem = "" then "" else clean elem) else clean (base ++ "/" ++ elem)

/-! ## Patterns -/

/-- `scanChunk` behind the leading stars: the pattern up to the next star
outside brackets, and from there on. -/
def scanChunk (inrange : Bool) : List Char → List Char × List Char
  | [] => ([], [])
  | '\\' :: c :: rest =>
    let halves := scanChunk inrange rest
    ('\\' :: c :: halves.1, halves.2)
  | c :: rest =>
    if c = '*' ∧ ¬inrange then ([], c :: rest)
    else
      let halves := scanChunk (if c = '[' then true else if c = ']' then false else inrange) rest
      (c :: halves.1, halves.2)

/-- `getEsc`: one character of a character class, which cannot end the
pattern. -/
def getEsc : List Char → Option (List Char)
  | [] => none
  | '-' :: _ => none
  | ']' :: _ => none
  | '\\' :: _ :: c :: rest => some (c :: rest)
  | '\\' :: _ => none
  | _ :: c :: rest => some (c :: rest)
  | _ => none

/-- The ranges of a character class, up to its closing bracket; `fuel` bounds
their number. -/
def ranges (fuel : Nat) (first : Bool) (chunk : List Char) : Option (List Char) :=
  match fuel with
  | 0 => none
  | fuel + 1 =>
    match first, chunk with
    | false, ']' :: rest => some rest
    | _, _ =>
      match getEsc chunk with
      | none => none
      | some ('-' :: rest) =>
        match getEsc rest with
        | none => none
        | some rest => ranges fuel false rest
      | some rest => ranges fuel false rest

/-- `matchChunk` once the name is used up: it goes on checking that the chunk is
well formed. -/
def wellFormed (fuel : Nat) (chunk : List Char) : Bool :=
  match fuel with
  | 0 => true
  | fuel + 1 =>
    match chunk with
    | [] => true
    | '[' :: '^' :: rest =>
      match ranges (rest.length + 1) true rest with
      | none => false
      | some rest => wellFormed fuel rest
    | '[' :: rest =>
      match ranges (rest.length + 1) true rest with
      | none => false
      | some rest => wellFormed fuel rest
    | ['\\'] => false
    | '\\' :: _ :: rest => wellFormed fuel rest
    | _ :: rest => wellFormed fuel rest

/-- The chunks of a pattern in turn, as `path.Match` checks them against an
empty name. -/
def chunksWellFormed (fuel : Nat) (pattern : List Char) : Bool :=
  match fuel with
  | 0 => true
  | fuel + 1 =>
    match pattern.dropWhile (· = '*') with
    | [] => true
    | rest =>
      let halves := scanChunk false rest
      wellFormed halves.1.length halves.1 && chunksWellFormed fuel halves.2

/-- Whether `path.Match` accepts a pattern; the error it returns otherwise is
`ErrBadPattern`. -/
def validPattern (pattern : String) : Bool :=
  chunksWellFormed (pattern.toList.length + 1) pattern.toList

/-- `path.ErrBadPattern`. -/
def errBadPattern : String := "syntax error in pattern"

end Path
