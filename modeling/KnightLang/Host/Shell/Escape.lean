namespace KnightLang.Host.Shell.Escape

def isOctal (c : Char) : Bool := '0' ≤ c && c ≤ '7'

def octal (most : Nat) (cs : List Char) : Char × List Char :=
  let ds := (cs.take most).takeWhile isOctal
  (Char.ofNat (ds.foldl (fun n c => 8 * n + (c.toNat - 48)) 0 % 256), cs.drop ds.length)

def decode : List Char → Char × List Char
  | '\\' :: rest => ('\\', rest)
  | 'a' :: rest => ('\x07', rest)
  | 'b' :: rest => ('\x08', rest)
  | 'e' :: rest => ('\x1b', rest)
  | 'f' :: rest => ('\x0c', rest)
  | 'n' :: rest => ('\n', rest)
  | 'r' :: rest => ('\r', rest)
  | 't' :: rest => ('\t', rest)
  | 'v' :: rest => ('\x0b', rest)
  | cs => if (cs.head?.map isOctal).getD false then octal 3 cs else ('\\', cs)

/-- A text with its escapes decoded, and whether it was cut off by the escape that ends all output. An
octal number may have one more zero in front. -/
def decodeAll (s : String) : String × Bool :=
  go (s.length + 1) "" s.toList
where
  go : Nat → String → List Char → String × Bool
    | 0, done, _ => (done, false)
    | _, done, [] => (done, false)
    | _ + 1, done, '\\' :: 'c' :: _ => (done, true)
    | fuel + 1, done, '\\' :: '0' :: rest =>
      let (c, rest) := octal 3 rest
      go fuel (done.push c) rest
    | fuel + 1, done, '\\' :: rest =>
      let (c, rest) := decode rest
      go fuel (done.push c) rest
    | fuel + 1, done, c :: rest => go fuel (done.push c) rest

end KnightLang.Host.Shell.Escape
