import AddressPool.Action
import AddressPool.Lease
import AddressPool.Text.Blank
import AddressPool.Text.Quoted

/-!
# Resolver settings

Resolver settings are read line by line.  A line begins with a keyword, and the words after it are
its values: of `nameserver` and `domain` the first counts, of `search` and `options` all of them.
Servers, search domains and options add up over the lines; the last domain stands.  Blank lines,
comments and lines with other keywords change nothing.
-/

namespace AddressPool.Resolver

open AddressPool.Text (words trimmed lines)

/-- The words of a line that says something: blank lines and comments have none. -/
def significant (line : List Char) : List String :=
  match trimmed line with
  | [] => []
  | c :: cs => if c = '#' ∨ c = ';' then [] else (words (c :: cs)).map String.ofList

/-- What a line, given by its words, changes. -/
def apply (r : Resolver) : List String → Resolver
  | [] => r
  | keyword :: values =>
    if keyword = "nameserver" then { r with nameservers := r.nameservers ++ values.take 1 }
    else if keyword = "domain" then { r with domain := values.head?.getD r.domain }
    else if keyword = "search" then { r with search := r.search ++ values }
    else if keyword = "options" then { r with options := r.options ++ values }
    else r

def ofText (text : String) : Resolver :=
  ((lines text.toList).map significant).foldl apply {}

/-- The keyword of a line that changes nothing although it has one. -/
def ignored? : List String → Option String
  | [] => none
  | keyword :: _ =>
    if ["nameserver", "domain", "search", "options"].contains keyword then none else some keyword

/-- What is reported of the lines of a text: the keywords that are not known. -/
def reports (text : String) : Log :=
  (((lines text.toList).map significant).filterMap ignored?).toArray.map fun keyword =>
    ⟨.debug, "Ignoring resolv.conf keyword " ++ Text.Quoted.text keyword⟩

end AddressPool.Resolver
