import KnightLang.Strings.Guard

namespace KnightLang

def version : String := "0.1.0 (" ++ Strategy.active.name ++ ")"

end KnightLang
