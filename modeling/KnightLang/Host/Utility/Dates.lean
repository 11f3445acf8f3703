import KnightLang.Host.Text.Calendar
import KnightLang.Host.Utility.Manage

namespace KnightLang.Host.Utility

open Kernel (Work)
open Calendar (Moment)

def standardFormat (separator : String) : String → Option String
  | "" | "date" => some "%Y-%m-%d"
  | "hours" => some ("%Y-%m-%d" ++ separator ++ "%H%:z")
  | "minutes" => some ("%Y-%m-%d" ++ separator ++ "%H:%M%:z")
  | "seconds" => some ("%Y-%m-%d" ++ separator ++ "%H:%M:%S%:z")
  | "ns" => some ("%Y-%m-%d" ++ separator ++ "%H:%M:%S" ++ (if separator = "T" then "," else ".") ++
      "%N%:z")
  | _ => none

def date : Kernel.Program := fun call =>
  let known : Options.Known :=
    { letters := "d:f:I::r:Rs:u3:",
      names := [("date", 'd'), ("file", 'f'), ("iso-8601", 'I'), ("reference", 'r'),
        ("rfc-email", 'R'), ("rfc-2822", 'R'), ("rfc-3339", '3'), ("set", 's'), ("utc", 'u'),
        ("universal", 'u')] }
  withOptions call 1 known fun o => do
    let time := (← Work.files).now
    let now : Moment := { seconds := time / 1000000, nanoseconds := time % 1000000 * 1000 }
    let format? : Option String := match o.lastOf? ['R', 'I', '3'] with
      | some 'R' => some "%a, %d %b %Y %H:%M:%S +0000"
      | some 'I' => standardFormat "T" ((o.last? 'I').getD "")
      | some _ => standardFormat " " ((o.last? '3').getD "")
      | none => none
    match o.operands with
    | _ :: b :: _ => misused call 1 ("extra operand " ++ quoted b)
    | operands =>
      let operand := operands.head?
      let format := match operand with
        | some f => if f.startsWith "+" then some (f.drop 1).copy else none
        | none => none
      let strange := operand.filter fun f => !f.startsWith "+"
      let moment ← match o.lastOf? ['d', 'r', 's'] with
        | some 'r' => do
          let path := (o.last? 'r').getD ""
          match ← nodeAt true path with
          | .ok (id, _) =>
            let time := (← Work.files).changed[id]?.getD 0
            pure (some { seconds := time / 1000000, nanoseconds := time % 1000000 * 1000 })
          | .error f =>
            complain call (plainName path ++ ": " ++ f.text)
            return 1
        | some c =>
          let text := (o.last? c).getD ""
          match now.read? text with
          | some m => pure (some m)
          | none =>
            complain call ("invalid date " ++ quoted text)
            return 1
        | none => pure (if strange.isSome then none else some now)
      match moment with
      | none =>
        complain call ("invalid date " ++ quoted (strange.getD ""))
        return 1
      | some m =>
        let text := m.shown ((format.orElse fun _ => format?).getD "%a %b %e %H:%M:%S %Z %Y")
        finish call (text ++ "\n") 0

end KnightLang.Host.Utility
