import StyleShield.Shell.Word

/-! Shell scripts: commands with their redirections, and the ways to join them. A script is
read into lexemes first and then line by line, since what stands before a mistake still
runs. Every step of a reader is counted, so it ends. -/
namespace StyleShield.Shell

inductive Redirection where
  | input (descriptor : Nat) (file : Word)
  | output (descriptor : Nat) (appends : Bool) (file : Word)
  | duplicate (descriptor : Nat) (source : Word)
  | here (descriptor : Nat) (body : Word)
  deriving DecidableEq

inductive Script where
  | nothing
  | simple (line : Nat) (assignments : List (Text × Word)) (words : List Word)
      (redirections : List Redirection)
  | pipe (left right : Script)
  | both (left right : Script)
  | either (left right : Script)
  | sequence (first second : Script)
  | inverted (s : Script)
  | redirected (line : Nat) (body : Script) (redirections : List Redirection)
  | isolated (body : Script)
  | detached (body : Script)
  | choice (condition yes no : Script)
  | loop (wanted : Bool) (condition body : Script)
  | each (name : Text) (words : Option (List Word)) (body : Script)
  | cases (subject : Word) (arms : Script)
  | arm (patterns : List Word) (body rest : Script)
  | define (name : Text) (body : Script)
  deriving DecidableEq

/-! ### Lexemes -/

inductive Lexeme where
  | word (w : Word)
  | operator (s : Text)
  | redirect (descriptor : Nat) (sign : Text)
  | here (descriptor : Nat) (body : Word)
  | newline
  | finish
  | broken (cause : SyntaxCause)
  deriving DecidableEq

namespace Script

def isGap (c : Char) : Bool := c == ' ' || c == '\t'

def operators : List Text := ["&&", "||", ";;", ";", "&", "|", "(", ")"].map String.toList

def signs : List Text := ["<<-", "<<", "<&", "<>", "<", ">>", ">&", ">|", ">"].map String.toList

def startOf (spellings : List Text) (s : Text) : Option (Text × Text) :=
  spellings.findSome? fun o => (Text.after? o s).map fun r => (o, r)

def signOf (s : Text) : Option (Nat × Text × Text) :=
  match s with
  | d :: c :: _ =>
    if d.isDigit && (c == '<' || c == '>') then
      (startOf signs (s.drop 1)).map fun (o, r) => (d.toNat - 48, o, r)
    else (startOf signs s).map fun (o, r) => (if o.head? = some '<' then 0 else 1, o, r)
  | _ => (startOf signs s).map fun (o, r) => (if o.head? = some '<' then 0 else 1, o, r)

/-- The lines before the one that is the delimiter, and how many characters they take with it. -/
def hereLines (strips : Bool) (delimiter : Text) : List Text → Text × Nat
  | [] => ([], 0)
  | l :: ls =>
    let shown := if strips then l.dropWhile (· = '\t') else l
    if shown = delimiter then ([], l.length + 1)
    else
      let (t, n) := hereLines strips delimiter ls
      (if ls = [] then (shown, l.length) else (shown ++ '\n' :: t, l.length + 1 + n))

/-- The text that is given in the lines after this one, of which `owed` characters are taken
already, and how many it takes in all. -/
def hereText (sign : Text) (delimiter : Word) (owed : Nat) (s : Text) : Word × Nat :=
  let coming := ((s.dropWhile (· ≠ '\n')).drop 1).drop owed
  let (t, n) := hereLines (sign = "<<-".toList) (Word.spelling delimiter) (Text.splitOn '\n' coming)
  (if (Word.bare? delimiter).isSome then Word.ofText true t else [.quoted t], owed + n)

/-- Lexemes, each with the line after it. `owed` characters are skipped at the next line end. -/
def lexemes : (fuel line owed : Nat) → Text → List (Nat × Lexeme)
  | 0, line, _, _ => [(line, .finish)]
  | _, line, _, [] => [(line, .finish)]
  | fuel + 1, line, owed, '\\' :: '\n' :: s => lexemes fuel (line + 1) owed s
  | fuel + 1, line, owed, c :: s =>
    if isGap c then lexemes fuel line owed s
    else if c = '\n' then
      (line + 1, .newline) :: lexemes fuel (line + 1 + (s.take owed).count '\n') 0 (s.drop owed)
    else if c = '#' then lexemes fuel line owed (s.dropWhile (· ≠ '\n'))
    else match signOf (c :: s), startOf operators (c :: s) with
      | some (d, sign, r), _ =>
        if Text.startsWith "<<".toList sign then
          let r' := r.dropWhile isGap
          match Word.read Word.isEnd (r'.length + 1) r' with
          | .error e => [(line, .broken e)]
          | .ok ([], _) => (line, .redirect d sign) :: lexemes fuel line owed r
          | .ok (delimiter, rest) =>
            let (body, owed) := hereText sign delimiter owed rest
            (line, .here d body) :: lexemes fuel line owed rest
        else (line, .redirect d sign) :: lexemes fuel line owed r
      | none, some (o, r) => (line, .operator o) :: lexemes fuel line owed r
      | none, none => match Word.read Word.isEnd (s.length + 2) (c :: s) with
        | .error e => [(line + match e with
            | .openQuote | .openBrace | .openBackquote => 0
            | _ => s.count '\n', .broken e)]
        | .ok (w, r) =>
          let line := line + ((c :: s).take (s.length + 1 - r.length)).count '\n'
          (line, .word w) :: lexemes fuel line owed r

/-! ### Reading -/

abbrev Rest := List (Nat × Lexeme)

def reservedWords : List Text :=
  ["!", "\x7b", "\x7d", "case", "do", "done", "elif", "else", "esac", "fi", "for", "if", "in", "then",
    "until", "while"].map String.toList

def reserved? : Rest → Option Text
  | (_, .word w) :: _ => (Word.bare? w).filter (reservedWords.contains ·)
  | _ => none

def isNext (name : String) (r : Rest) : Bool := reserved? r = some name.toList

def inSigns (s : Text) : Text := ['"'] ++ s ++ ['"']

def shown (r : Rest) : Text :=
  match reserved? r, r with
  | some name, _ => inSigns name
  | none, (_, .word _) :: _ => "word".toList
  | none, (_, .operator s) :: _ => inSigns s
  | none, (_, .redirect _ _) :: _ | none, (_, .here _ _) :: _ => "redirection".toList
  | none, (_, .newline) :: _ => "newline".toList
  | none, _ => "end of file".toList

def unexpected {α : Type} (r : Rest) (expecting : Option Text) : Except SyntaxFault α :=
  match r with
  | (line, .broken cause) :: _ => .error ⟨line, cause⟩
  | (line, _) :: _ => .error ⟨line, .unexpected (shown r) expecting⟩
  | [] => .error ⟨0, .unexpected (shown []) none⟩

def skipNewlines : Rest → Rest
  | (_, .newline) :: r => skipNewlines r
  | r => r

def expect (name : String) (r : Rest) : Except SyntaxFault Rest :=
  if isNext name r then .ok (r.drop 1) else unexpected r (some (inSigns name.toList))

def assignment? : Word → Option (Text × Word)
  | .plain [c] :: w => if Word.isNameStart c then go [c] w else none
  | _ => none
where
  go (name : Text) : Word → Option (Text × Word)
    | .plain [c] :: w => if c = '=' then some (name, w) else if Word.isNameChar c then go (name ++ [c]) w else none
    | _ => none

def isName (s : Text) : Bool :=
  match s with
  | c :: _ => Word.isNameStart c && s.all Word.isNameChar
  | [] => false

def redirectionOf (descriptor : Nat) (sign : Text) (w : Word) : Redirection :=
  if sign = ['>', '&'] ∨ sign = ['<', '&'] then .duplicate descriptor w
  else if sign.head? = some '<' then .input descriptor w
  else .output descriptor (sign = ['>', '>']) w

def simpleOf : Rest → Except SyntaxFault (List Word × List Redirection × Rest)
  | (_, .word w) :: r => do
    let (ws, rs, r) ← simpleOf r
    return (w :: ws, rs, r)
  | (_, .redirect d sign) :: (_, .word w) :: r => do
    let (ws, rs, r) ← simpleOf r
    return (ws, redirectionOf d sign w :: rs, r)
  | (_, .redirect _ _) :: r => unexpected r none
  | (_, .here d body) :: r => do
    let (ws, rs, r) ← simpleOf r
    return (ws, .here d body :: rs, r)
  | r => .ok ([], [], r)

def redirectionsOf : Rest → Except SyntaxFault (List Redirection × Rest)
  | (_, .redirect d sign) :: (_, .word w) :: r => do
    let (rs, r) ← redirectionsOf r
    return (redirectionOf d sign w :: rs, r)
  | (_, .redirect _ _) :: r => unexpected r none
  | (_, .here d body) :: r => do
    let (rs, r) ← redirectionsOf r
    return (.here d body :: rs, r)
  | r => .ok ([], r)

def assignmentsOf : List Word → List (Text × Word) × List Word
  | [] => ([], [])
  | w :: ws => match assignment? w with
    | some a => let (as, ws) := assignmentsOf ws; (a :: as, ws)
    | none => ([], w :: ws)

def leadingWords : Rest → List Word × Rest
  | (_, .word w) :: r => let (ws, r) := leadingWords r; (w :: ws, r)
  | r => ([], r)

def patternsOf : Rest → Except SyntaxFault (List Word × Rest)
  | (_, .word w) :: (_, .operator ['|']) :: r => do
    let (ws, r) ← patternsOf r
    return (w :: ws, r)
  | (_, .word w) :: (_, .operator [')']) :: r => .ok ([w], r)
  | (_, .word _) :: r => unexpected r (some (inSigns [')']))
  | r => unexpected r (some (inSigns [')']))

/-- What ends a list: the end, or a sign or word that closes what is open. -/
def endsList (r : Rest) : Bool :=
  match reserved? r, r with
  | some name, _ => ["\x7d", "do", "done", "elif", "else", "esac", "fi", "then"].any (·.toList = name)
  | none, (_, .operator s) :: _ => s = [')'] ∨ s = [';', ';']
  | none, (_, .finish) :: _ => true
  | none, _ => false

/-- The names of commands that no function may have. -/
def fixedNames : List Text :=
  [".", ":", "break", "continue", "eval", "exec", "exit", "export", "readonly", "return", "set", "shift",
    "times", "trap", "unset"].map String.toList

def withRedirections (line : Nat) (s : Script) : List Redirection → Script
  | [] => s
  | rs => match s with
    | .isolated body => .isolated (.redirected line body rs)
    | s => .redirected line s rs

def plainOf (line : Nat) (r : Rest) : Except SyntaxFault (Script × Rest) := do
  let (ws, rs, r) ← simpleOf r
  let (as, ws) := assignmentsOf ws
  return (.simple line as ws rs, r)

mutual
def commandOf : (fuel : Nat) → Rest → Except SyntaxFault (Script × Rest)
  | 0, r => unexpected r none
  | fuel + 1, r => match reserved? r, r with
    | some name, (line, _) :: r' =>
      if name = "\x7b".toList then do
        let (s, r) ← listOf fuel false r'
        let r ← expect "\x7d" r
        let (rs, r) ← redirectionsOf r
        return (withRedirections line s rs, r)
      else if name = "if".toList then do
        let (s, r) ← branchOf fuel r'
        let (rs, r) ← redirectionsOf r
        return (withRedirections line s rs, r)
      else if name = "while".toList ∨ name = "until".toList then do
        let (c, r) ← listOf fuel false r'
        let (s, r) ← bodyOf fuel r
        let (rs, r) ← redirectionsOf r
        return (withRedirections line (.loop (name = "while".toList) c s) rs, r)
      else if name = "for".toList then do
        let (s, r) ← eachOf fuel r'
        let (rs, r) ← redirectionsOf r
        return (withRedirections line s rs, r)
      else if name = "case".toList then match r' with
        | (_, .word subject) :: r => do
          let r ← expect "in" (skipNewlines r)
          let (arms, r) ← armsOf fuel r
          let (rs, r) ← redirectionsOf r
          return (withRedirections line (.cases subject arms) rs, r)
        | r => unexpected r (some "word".toList)
      else unexpected r none
    | _, (line, .operator ['(']) :: r => do
      let (s, r) ← listOf fuel false r
      match r with
      | (_, .operator [')']) :: r => do
        let (rs, r) ← redirectionsOf r
        return (withRedirections line (.isolated s) rs, r)
      | r => unexpected r (some (inSigns [')']))
    | _, (line, .word w) :: r' => match r' with
      | (_, .operator ['(']) :: r' =>
        if (assignment? w).isSome then plainOf line r
        else match r' with
          | (_, .operator [')']) :: r' =>
            match Word.bare? w with
            | some name =>
              if isName name && !fixedNames.contains name then do
                let (body, r) ← commandOf fuel (skipNewlines r')
                return (.define name body, r)
              else .error ⟨line, .badFunctionName⟩
            | none => .error ⟨line, .badFunctionName⟩
          | r' => unexpected r' (some (inSigns [')']))
      | _ => plainOf line r
    | _, (line, .redirect _ _) :: _ | _, (line, .here _ _) :: _ => plainOf line r
    | _, r => unexpected r none

def branchOf : (fuel : Nat) → Rest → Except SyntaxFault (Script × Rest)
  | 0, r => unexpected r none
  | fuel + 1, r => do
    let (c, r) ← listOf fuel false r
    let r ← expect "then" r
    let (yes, r) ← listOf fuel false r
    if isNext "elif" r then do
      let (no, r) ← branchOf fuel (r.drop 1)
      return (.choice c yes no, r)
    else if isNext "else" r then do
      let (no, r) ← listOf fuel false (r.drop 1)
      let r ← expect "fi" r
      return (.choice c yes no, r)
    else do
      let r ← expect "fi" r
      return (.choice c yes .nothing, r)

def bodyOf : (fuel : Nat) → Rest → Except SyntaxFault (Script × Rest)
  | 0, r => unexpected r none
  | fuel + 1, r => do
    let r ← expect "do" r
    let (s, r) ← listOf fuel false r
    let r ← expect "done" r
    return (s, r)

def eachOf : (fuel : Nat) → Rest → Except SyntaxFault (Script × Rest)
  | 0, r => unexpected r none
  | fuel + 1, r => match r with
    | (line, .word w) :: r => match Word.bare? w with
      | some name =>
        if isName name then
          let r' := skipNewlines r
          if isNext "in" r' then
            let (ws, r) := leadingWords (r'.drop 1)
            match r with
            | (_, .newline) :: r | (_, .operator [';']) :: r => do
              let (s, r) ← bodyOf fuel (skipNewlines r)
              return (.each name (some ws) s, r)
            | r => unexpected r none
          else do
            let r := match r' with
              | (_, .operator [';']) :: r => r
              | r => r
            let (s, r) ← bodyOf fuel (skipNewlines r)
            return (.each name none s, r)
        else .error ⟨line, .badLoopVariable⟩
      | none => .error ⟨line, .badLoopVariable⟩
    | (line, .broken cause) :: _ => .error ⟨line, cause⟩
    | (line, _) :: _ => .error ⟨line, .badLoopVariable⟩
    | [] => unexpected [] none

def armsOf : (fuel : Nat) → Rest → Except SyntaxFault (Script × Rest)
  | 0, r => unexpected r none
  | fuel + 1, r =>
    let r := skipNewlines r
    if isNext "esac" r then .ok (.nothing, r.drop 1)
    else do
      let (patterns, r) ← patternsOf (match r with
        | (_, .operator ['(']) :: r => r
        | r => r)
      let (body, r) ← listOf fuel true r
      let r := skipNewlines r
      if isNext "esac" r then return (.arm patterns body .nothing, r.drop 1)
      else match r with
        | (_, .operator [';', ';']) :: r => do
          let (rest, r) ← armsOf fuel r
          return (.arm patterns body rest, r)
        | r => unexpected r (some (inSigns [';', ';']))

def pipelineOf : (fuel : Nat) → Rest → Except SyntaxFault (Script × Rest)
  | 0, r => unexpected r none
  | fuel + 1, r =>
    if isNext "!" r then do
      let (s, r) ← stagesOf fuel (r.drop 1)
      return (.inverted s, r)
    else stagesOf fuel r

def stagesOf : (fuel : Nat) → Rest → Except SyntaxFault (Script × Rest)
  | 0, r => unexpected r none
  | fuel + 1, r => do
    let (s, r) ← commandOf fuel r
    match r with
    | (_, .operator ['|']) :: r => do
      let (t, r) ← stagesOf fuel (skipNewlines r)
      return (.pipe s t, r)
    | r => return (s, r)

def conditionsOf : (fuel : Nat) → (left : Script) → Rest → Except SyntaxFault (Script × Rest)
  | 0, _, r => unexpected r none
  | fuel + 1, left, r => match r with
    | (_, .operator ['&', '&']) :: r => do
      let (s, r) ← pipelineOf fuel (skipNewlines r)
      conditionsOf fuel (.both left s) r
    | (_, .operator ['|', '|']) :: r => do
      let (s, r) ← pipelineOf fuel (skipNewlines r)
      conditionsOf fuel (.either left s) r
    | r => .ok (left, r)

/-- Commands up to what closes them. The first one may be missing only if `mayEnd` says so. -/
def listOf : (fuel : Nat) → (mayEnd : Bool) → Rest → Except SyntaxFault (Script × Rest)
  | 0, _, r => unexpected r none
  | fuel + 1, mayEnd, r => do
    let r := skipNewlines r
    match r with
    | (_, .finish) :: _ => return (.nothing, r)
    | r =>
      if mayEnd && endsList r then return (.nothing, r)
      let (s, r) ← pipelineOf fuel r
      let (s, r) ← conditionsOf fuel s r
      match r with
      | (_, .operator ['&']) :: r => do
        let (t, r) ← listOf fuel true r
        return (.sequence (.detached s) t, r)
      | (_, .operator [';']) :: r | (_, .newline) :: r => do
        let (t, r) ← listOf fuel true r
        return (.sequence s t, r)
      | r => return (s, r)
end

def lineOf (limit : Nat) : (fuel : Nat) → Rest → Except SyntaxFault (Script × Rest)
  | 0, r => unexpected r none
  | fuel + 1, r => match r with
    | (_, .newline) :: r => .ok (.nothing, r)
    | (_, .finish) :: _ => .ok (.nothing, r)
    | r => do
      let (s, r) ← pipelineOf limit r
      let (s, r) ← conditionsOf limit s r
      match r with
      | (_, .newline) :: r => return (s, r)
      | (_, .finish) :: _ => return (s, r)
      | (_, .operator ['&']) :: r => do
        let (t, r) ← lineOf limit fuel r
        return (.sequence (.detached s) t, r)
      | (_, .operator [';']) :: r => do
        let (t, r) ← lineOf limit fuel r
        return (.sequence s t, r)
      | r => unexpected r none

def linesOf (limit : Nat) : (fuel : Nat) → Rest → List Script × Option SyntaxFault
  | 0, _ => ([], none)
  | fuel + 1, r => match r with
    | [] | (_, .finish) :: _ => ([], none)
    | r => match lineOf limit limit r with
      | .error f => ([], some f)
      | .ok (s, r) =>
        let (ss, f) := linesOf limit fuel r
        (s :: ss, f)

def ofText (line : Nat) (s : Text) : List Script × Option SyntaxFault :=
  let ls := lexemes (s.length + 1) line 0 s
  let limit := 8 * ls.length + 16
  linesOf limit limit ls

end Script
end StyleShield.Shell
