import KnightLang.Host.Shell.State

namespace KnightLang.Host.Shell

def optionNames : List (String × Option Char) :=
  [("errexit", some 'e'), ("noglob", some 'f'), ("ignoreeof", some 'I'), ("interactive", some 'i'),
    ("monitor", some 'm'), ("noexec", some 'n'), ("stdin", some 's'), ("xtrace", some 'x'),
    ("verbose", some 'v'), ("vi", some 'V'), ("emacs", some 'E'), ("noclobber", some 'C'),
    ("allexport", some 'a'), ("notify", some 'b'), ("nounset", some 'u'), ("privileged", some 'p'),
    ("nolog", none), ("debug", none)]

namespace Run

def options (allowed : String) (arguments : List String) :
    Run (List (Char × String) × List String) :=
  next (arguments.foldl (fun n a => n + a.length + 1) 1) [] [] arguments
where
  next : Nat → List (Char × String) → List Char → List String →
      Run (List (Char × String) × List String)
    | 0, found, _, rest => return (found.reverse, rest)
    | fuel + 1, found, c :: letters, rest => do
      let known := allowed.toList.dropWhile (· ≠ c)
      match known with
      | _ :: ':' :: _ =>
        match letters, rest with
        | [], [] => fail ("No arg for -" ++ String.singleton c ++ " option")
        | [], a :: rest => next fuel ((c, a) :: found) [] rest
        | letters, rest => next fuel ((c, String.ofList letters) :: found) [] rest
      | _ :: _ =>
        if c = ':' then fail "Illegal option -:" else next fuel ((c, "") :: found) letters rest
      | [] => fail ("Illegal option -" ++ String.singleton c)
    | fuel + 1, found, [], rest =>
      match rest with
      | "-" :: _ => return (found.reverse, rest)
      | "--" :: rest => return (found.reverse, rest)
      | a :: after =>
        match a.toList with
        | '-' :: letters => next fuel found letters after
        | _ => return (found.reverse, rest)
      | [] => return (found.reverse, [])

def noOptions (arguments : List String) : Run (List String) := do
  return (← options "" arguments).2

def print (text : String) : Run Unit := modifyShell fun s => { s with printed := s.printed ++ text }

def setLetter (on : Bool) (c : Char) : Run Unit := do
  if optionNames.any (·.2 = some c) then setOption c on
  else fail ("Illegal option -" ++ String.singleton c)

def listOptions (asCommands : Bool) : Run Unit := do
  let set := (← shell).options
  let isOn : Option Char → Bool
    | some c => set.contains c
    | none => false
  if asCommands then
    for (name, letter) in optionNames do
      print ((if isOn letter then "set -o " else "set +o ") ++ name ++ "\n")
  else
    print "Current option settings\n"
    for (name, letter) in optionNames do
      print (name.pushn ' ' (16 - name.length) ++ (if isOn letter then "on\n" else "off\n"))

def setNamed (on : Bool) : List String → Run (List String)
  | [] => do
    listOptions (!on)
    return []
  | name :: rest => do
    match optionNames.lookup name with
    | some (some c) => setOption c on
    | some none => pure ()
    | none => fail ("Illegal option -o " ++ name)
    return rest

def setLetters (on : Bool) : List Char → List String → Run (List String)
  | [], rest => return rest
  | 'o' :: letters, rest => do setLetters on letters (← setNamed on rest)
  | c :: letters, rest => do
    setLetter on c
    setLetters on letters rest

def setArguments (arguments : List String) : Run Unit := modifyShell fun s =>
  { s with arguments, optionIndex := 1, optionOffset := none }

def setAll : Nat → List String → Run Unit
  | 0, _ => pure ()
  | fuel + 1, arguments => do
    match arguments with
    | [] => pure ()
    | "-" :: rest =>
      setOption 'x' false
      setOption 'v' false
      unless rest.isEmpty do setArguments rest
    | "--" :: rest => setArguments rest
    | a :: rest =>
      match a.toList with
      | '-' :: letters => setAll fuel (← setLetters true letters rest)
      | '+' :: letters => setAll fuel (← setLetters false letters rest)
      | _ => setArguments arguments

end Run

end KnightLang.Host.Shell
