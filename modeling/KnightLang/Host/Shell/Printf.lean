import KnightLang.Host.Shell.Arithmetic
import KnightLang.Host.Shell.Escape
import KnightLang.Host.Text.Directive

namespace KnightLang.Host.Shell.Printf

structure Progress where
  printed : String := ""
  arguments : List String
  warnings : List String := []

inductive Ended
  | atEnd
  | early
  | faulty (message : String)
  deriving DecidableEq

def Progress.print (s : String) (p : Progress) : Progress := { p with printed := p.printed ++ s }

def Progress.warn (s : String) (p : Progress) : Progress := { p with warnings := s :: p.warnings }

def take (p : Progress) : Option String × Progress :=
  match p.arguments with
  | [] => (none, p)
  | a :: rest => (some a, { p with arguments := rest })

def checked (s : String) (p : Progress) (inRange : Bool) : Option (List Char) → Progress
  | none => if s.isEmpty then p else p.warn (s ++ ": expected numeric value")
  | some [] => if inRange then p else p.warn (s ++ ": Numerical result out of range")
  | some _ => p.warn (s ++ ": not completely converted")

def takeInteger (signed : Bool) (p : Progress) : Int × Progress :=
  match take p with
  | (none, p) => (0, p)
  | (some s, p) =>
    match s.toList with
    | '"' :: c :: _ | '\'' :: c :: _ => (c.toNat, p)
    | ['"'] | ['\''] => (0, p)
    | cs =>
      match Arithmetic.readInteger Arithmetic.readNatural cs with
      | none => (0, checked s p true none)
      | some (n, rest) =>
        let (least, greatest) : Int × Int :=
          if signed then (Arithmetic.least, Arithmetic.greatest)
          else (-0xffffffffffffffff, 0xffffffffffffffff)
        if n < least then (if signed then least else greatest, checked s p false (some rest))
        else if greatest < n then (greatest, checked s p false (some rest))
        else (n, checked s p true (some rest))

def takeFloating (p : Progress) : Floating × Progress :=
  match take p with
  | (none, p) => (.finite false 0 0, p)
  | (some s, p) =>
    match s.toList with
    | '"' :: c :: _ | '\'' :: c :: _ => (.ofFraction 53 false c.toNat 1, p)
    | cs =>
      match Floating.read 53 cs with
      | none => (.finite false 0 0, checked s p true none)
      | some (f, rest) => (f, checked s p true (some rest))

def readCount (cs : List Char) : Nat × List Char :=
  let ds := cs.takeWhile Char.isDigit
  (ds.foldl (fun n c => 10 * n + (c.toNat - 48)) 0, cs.drop ds.length)

def readSizes (flags : List Char) (cs : List Char) (p : Progress) :
    Directive × List Char × Progress :=
  let (d, cs, p) : Directive × List Char × Progress :=
    match cs with
    | '*' :: rest =>
      let (n, p) := takeInteger true p
      (Directive.withWidth { flags } n, rest, p)
    | cs =>
      let (n, rest) := readCount cs
      ({ flags, width := n }, rest, p)
  match cs with
  | '.' :: '*' :: rest =>
    let (n, p) := takeInteger true p
    (if n < 0 then d else { d with precision := some n.toNat }, rest, p)
  | '.' :: rest =>
    let (n, rest) := readCount rest
    ({ d with precision := some n }, rest, p)
  | rest => (d, rest, p)

def directive (d : Directive) (p : Progress) : Option (Ended × Progress) :=
  match d.conversion with
  | 's' =>
    let (a, p) := take p
    some (.atEnd, p.print (d.text (a.getD "")))
  | 'b' =>
    let (a, p) := take p
    let (s, stops) := Escape.decodeAll (a.getD "")
    some (if stops then .early else .atEnd, p.print (d.text s))
  | 'c' =>
    let (a, p) := take p
    let c := ((a.getD "").toList.head?).getD '\x00'
    some (.atEnd, p.print (d.fill (String.singleton c)))
  | 'd' | 'i' =>
    let (n, p) := takeInteger true p
    some (.atEnd, p.print (d.integer n))
  | 'o' | 'u' | 'x' | 'X' =>
    let (n, p) := takeInteger false p
    some (.atEnd, p.print (d.integer n))
  | 'e' | 'E' | 'f' | 'F' | 'g' | 'G' | 'a' | 'A' =>
    let (f, p) := takeFloating p
    some (.atEnd, p.print (d.floating f))
  | _ => none

def once : Nat → List Char → Progress → Ended × Progress
  | 0, _, p => (.atEnd, p)
  | _, [], p => (.atEnd, p)
  | fuel + 1, '\\' :: rest, p =>
    let (c, rest) := Escape.decode rest
    once fuel rest (p.print (String.singleton c))
  | fuel + 1, '%' :: '%' :: rest, p => once fuel rest (p.print "%")
  | fuel + 1, '%' :: rest, p =>
    let flags := rest.takeWhile fun c => "#-+ 0".contains c
    let (d, after, p) := readSizes flags (rest.drop flags.length) p
    match after with
    | [] => (.faulty "missing format character", p)
    | c :: after' =>
      match directive { d with conversion := c } p with
      | none =>
        let shown := "%" ++ String.ofList (rest.take (rest.length - after'.length))
        (.faulty (shown ++ ": invalid directive"), p)
      | some (.atEnd, p) => once fuel after' p
      | some stopped => stopped
  | fuel + 1, c :: rest, p => once fuel rest (p.print (String.singleton c))

def all (format : List Char) : Nat → Progress → Ended × Progress
  | 0, p => (.atEnd, p)
  | fuel + 1, p =>
    match once (format.length + 1) format p with
    | (.atEnd, q) =>
      if q.arguments.isEmpty || q.arguments.length = p.arguments.length then (.atEnd, q)
      else all format fuel q
    | stopped => stopped

def run (format : String) (arguments : List String) : Ended × Progress :=
  all format.toList (arguments.length + 1) { arguments }

end KnightLang.Host.Shell.Printf
