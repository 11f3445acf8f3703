namespace KnightLang.Octets

def ofBytes (bs : ByteArray) : String :=
  bs.foldl (fun s b => s.push (Char.ofNat b.toNat)) ""

def toBytes (s : String) : ByteArray := s.foldl (fun bs c => bs.push c.toNat.toUInt8) .empty

def ofText (s : String) : String := ofBytes s.toByteArray

end KnightLang.Octets
