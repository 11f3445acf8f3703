import KnightLang.Host.Utility.Lines

namespace KnightLang.Host.Utility

open Kernel (Call Work)

/-! ### Dumps -/

structure DumpFormat where
  kind : Char
  size : Nat
  deriving DecidableEq, Repr

namespace DumpFormat

def width (f : DumpFormat) : Nat :=
  let pick (a b c d : Nat) : Nat := match f.size with
    | 1 => a
    | 2 => b
    | 4 => c
    | _ => d
  match f.kind with
  | 'o' => pick 3 6 11 22
  | 'd' => pick 4 6 11 20
  | 'u' => pick 3 5 10 20
  | 'x' => pick 2 4 8 16
  | _ => 3

def characterNames : List (Nat × String) :=
  [(0, "\\0"), (7, "\\a"), (8, "\\b"), (9, "\\t"), (10, "\\n"), (11, "\\v"), (12, "\\f"), (13, "\\r")]

def controlNames : List String :=
  ["nul", "soh", "stx", "etx", "eot", "enq", "ack", "bel", "bs", "ht", "nl", "vt", "ff", "cr", "so",
    "si", "dle", "dc1", "dc2", "dc3", "dc4", "nak", "syn", "etb", "can", "em", "sub", "esc", "fs",
    "gs", "rs", "us", "sp"]

def padded (base width n : Nat) : String :=
  let digits := String.ofList (Nat.toDigits base n)
  "".pushn '0' (width - digits.length) ++ digits

def cell (f : DumpFormat) (bytes : List Nat) : String :=
  let n := bytes.foldr (fun b n => 256 * n + b) 0
  match f.kind with
  | 'c' =>
    match characterNames.lookup n with
    | some s => s
    | none => if 32 ≤ n && n < 127 then String.singleton (Char.ofNat n) else padded 8 3 n
  | 'a' =>
    let n := n % 128
    if n = 127 then "del" else (controlNames[n]?).getD (String.singleton (Char.ofNat n))
  | 'o' => padded 8 f.width n
  | 'x' => padded 16 f.width n
  | 'u' => Decimal.ofNat n
  | _ =>
    let limit := Nat.pow 256 f.size
    if 2 * n < limit then Decimal.ofNat n else "-" ++ Decimal.ofNat (limit - n)

def groups (size : Nat) : Nat → List Nat → List (List Nat)
  | 0, _ | _, [] => []
  | fuel + 1, bs =>
    let g := bs.take size
    (g ++ List.replicate (size - g.length) 0) :: groups size fuel (bs.drop size)

def row (f : DumpFormat) (perLine room : Nat) (bytes : List Nat) : String :=
  let fields := perLine / f.size
  let spare := room - fields * (f.width + 1)
  ((groups f.size (bytes.length + 1) bytes).zipIdx).foldl (fun s (g, i) =>
    let left := fields - i
    let gap := spare * left / fields - spare * (left - 1) / fields
    s ++ alignRight (f.width + 1 + gap) (f.cell g)) ""

def readList : Nat → List Char → Option (List DumpFormat)
  | 0, _ => none
  | _, [] => some []
  | fuel + 1, c :: rest =>
    let rest' := rest.dropWhile (· = 'z')
    if c = 'a' || c = 'c' then (readList fuel rest').map (⟨c, 1⟩ :: ·)
    else if "doux".contains c then
      match rest with
      | 'C' :: rest => (readList fuel (rest.dropWhile (· = 'z'))).map (⟨c, 1⟩ :: ·)
      | 'S' :: rest => (readList fuel (rest.dropWhile (· = 'z'))).map (⟨c, 2⟩ :: ·)
      | 'I' :: rest => (readList fuel (rest.dropWhile (· = 'z'))).map (⟨c, 4⟩ :: ·)
      | 'L' :: rest => (readList fuel (rest.dropWhile (· = 'z'))).map (⟨c, 8⟩ :: ·)
      | d :: rest =>
        if d.isDigit then
          if "1248".contains d then
            (readList fuel (rest.dropWhile (· = 'z'))).map (⟨c, d.toNat - 48⟩ :: ·)
          else none
        else (readList fuel rest').map (⟨c, 4⟩ :: ·)
      | [] => some [⟨c, 4⟩]
    else none

end DumpFormat

def dumpLines (show' : List Nat → List String) (address : Nat → String) (perLine : Nat) (all : Bool) :
    Nat → Nat → Option (List Nat) → Bool → List Nat → Array String → Array String
  | 0, _, _, _, _, done => done
  | _, _, _, _, [], done => done
  | fuel + 1, at', before, starred, bs, done =>
    let line := bs.take perLine
    let rest := bs.drop perLine
    if !all && before = some line && line.length = perLine && !rest.isEmpty then
      dumpLines show' address perLine all fuel (at' + perLine) before true rest
        (if starred then done else done.push "*")
    else if !all && before = some line && line.length = perLine then
      (if starred then done else done.push "*")
    else
      let shown := show' line
      let gap := "".pushn ' ' (address at').length
      let texts := (shown.zipIdx).map fun (s, i) => (if i = 0 then address at' else gap) ++ s
      dumpLines show' address perLine all fuel (at' + perLine) (some line) false rest
        (done ++ texts.toArray)

def dumpLetter (c : Char) (argument : String) : Option (List DumpFormat) :=
  match c with
  | 'a' => some [⟨'a', 1⟩]
  | 'b' => some [⟨'o', 1⟩]
  | 'c' => some [⟨'c', 1⟩]
  | 'd' => some [⟨'u', 2⟩]
  | 'i' => some [⟨'d', 4⟩]
  | 'l' => some [⟨'d', 8⟩]
  | 'o' => some [⟨'o', 2⟩]
  | 's' => some [⟨'d', 2⟩]
  | 'x' => some [⟨'x', 2⟩]
  | 't' => DumpFormat.readList (argument.length + 1) argument.toList
  | _ => some []

def octalDump : Kernel.Program := fun call =>
  let known : Options.Known :=
    { letters := "A:j:N:t:vw::abcdilosxS:",
      names := [("address-radix", 'A'), ("skip-bytes", 'j'), ("read-bytes", 'N'), ("format", 't'),
        ("output-duplicates", 'v'), ("width", 'w')] }
  withOptions call 1 known fun o => do
    match o.found.mapM fun (c, a) => dumpLetter c a with
    | none =>
      complain call ("invalid type string " ++ quoted ((o.last? 't').getD ""))
      return 1
    | some formats =>
      let formats := if formats.flatten.isEmpty then [⟨'o', 2⟩] else formats.flatten
      let natOf (c : Char) : Option Nat := (o.last? c).bind fun s => (Amount.read? s).map (·.count)
      let perLine := if o.has 'w' then (natOf 'w').getD 32 else 16
      let (texts, good) ← readInputs call false plainFault o.operands
      let bytes := (join (texts.map (·.2))).toList.map Char.toNat
      let skipped := (natOf 'j').getD 0
      let bytes := bytes.drop skipped
      let bytes := match natOf 'N' with
        | some n => bytes.take n
        | none => bytes
      let room := formats.foldl (fun n f => max n (perLine / f.size * (f.width + 1))) 0
      let address (n : Nat) : String := match o.last? 'A' with
        | some "n" => ""
        | some "d" => DumpFormat.padded 10 7 n
        | some "x" => DumpFormat.padded 16 6 n
        | _ => DumpFormat.padded 8 7 n
      let lines := dumpLines (fun bs => formats.map fun f => f.row perLine room bs) address perLine
        (o.has 'v') (bytes.length + 1) skipped none false bytes #[]
      let last := address (skipped + bytes.length)
      finish call (unlines lines.toList ++ (if last.isEmpty then "" else last ++ "\n"))
        (if good then 0 else 1)

/-! ### Base 64 -/

def base64Alphabet : List Char :=
  "ABCDEFGHIJKLMNOPQRSTUVWXYZabcdefghijklmnopqrstuvwxyz0123456789+/".toList

def encodeBase64 : List Nat → List Char
  | [] => []
  | bs =>
    let digit (n : Nat) : Char := (base64Alphabet[n % 64]?).getD '='
    match bs with
    | a :: b :: c :: rest =>
      let n := 65536 * a + 256 * b + c
      digit (n / 262144) :: digit (n / 4096) :: digit (n / 64) :: digit n :: encodeBase64 rest
    | [a, b] =>
      let n := 65536 * a + 256 * b
      [digit (n / 262144), digit (n / 4096), digit (n / 64), '=']
    | [a] =>
      let n := 65536 * a
      [digit (n / 262144), digit (n / 4096), '=', '=']
    | [] => []

def decodeBase64 : List Char → List Nat × Bool
  | a :: b :: c :: d :: rest =>
    let value (x : Char) : Option Nat := base64Alphabet.findIdx? (· = x)
    match value a, value b, value c, value d with
    | some p, some q, some r, some s =>
      let n := 262144 * p + 4096 * q + 64 * r + s
      let (more, good) := decodeBase64 rest
      (n / 65536 :: n / 256 % 256 :: n % 256 :: more, good)
    | some p, some q, some r, none =>
      if d = '=' then
        let n := 262144 * p + 4096 * q + 64 * r
        let (more, good) := decodeBase64 rest
        (n / 65536 :: n / 256 % 256 :: more, good)
      else
        let n := 262144 * p + 4096 * q + 64 * r
        ([n / 65536, n / 256 % 256], false)
    | some p, some q, none, _ =>
      if c = '=' && d = '=' then
        let (more, good) := decodeBase64 rest
        ((262144 * p + 4096 * q) / 65536 :: more, good)
      else ([(262144 * p + 4096 * q) / 65536], false)
    | _, _, _, _ => ([], false)
  | [] => ([], true)
  | [a, b] | [a, b, _] =>
    match base64Alphabet.findIdx? (· = a), base64Alphabet.findIdx? (· = b) with
    | some p, some q => ([(262144 * p + 4096 * q) / 65536], false)
    | _, _ => ([], false)
  | _ => ([], false)

def wrapped (width : Nat) : Nat → List Char → List String
  | 0, _ | _, [] => []
  | fuel + 1, cs => String.ofList (cs.take width) :: wrapped width fuel (cs.drop width)

def base64 : Kernel.Program := fun call =>
  let known : Options.Known :=
    { letters := "diw:", names := [("decode", 'd'), ("ignore-garbage", 'i'), ("wrap", 'w')] }
  withOptions call 1 known fun o => do
    let path := o.operands.headD "-"
    match o.operands with
    | _ :: extra :: _ => misused call 1 ("extra operand " ++ quoted extra)
    | _ =>
      match ← readInput path false with
      | .error f =>
        complain call (plainFault path f)
        return 1
      | .ok s =>
        if o.has 'd' then
          let cs := s.toList.filter fun c =>
            if o.has 'i' then base64Alphabet.contains c || c = '=' else c ≠ '\n'
          let (bytes, good) := decodeBase64 cs
          let status ← finish call (String.ofList (bytes.map Char.ofNat)) 0
          if good then return status
          else
            complain call "invalid input"
            return 1
        else
          let width := ((o.last? 'w').bind (·.toNat?)).getD 76
          let cs := encodeBase64 (s.toList.map Char.toNat)
          finish call (if width = 0 then String.ofList cs else unlines (wrapped width (cs.length + 1) cs)) 0

end KnightLang.Host.Utility
