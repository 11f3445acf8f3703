namespace KnightLang.Text

def lines (ls : List String) : String := String.join (ls.map (· ++ "\n"))

def dropLineEnd (s : String) : String :=
  String.ofList (s.toList.reverse.dropWhile fun c => c = '\r' || c = '\n').reverse

end KnightLang.Text
