import Scaffold.Install.Attended
import Scaffold.Text.Blank
import Scaffold.Text.Case

/-!
# A console of markup

A console that reads tags in the lines that it shows.  A tag opens a style; a closing tag ends the style of its
name, or the last one.  A closing tag without a style to end is refused.
-/

namespace Scaffold.Host

/-- The name of a style, without regard to case and to blanks around it. -/
def styleName (written : List Char) : String := Text.lowered (String.ofList (Text.trim written))

/-- Reads the tags of a text behind a position, before which `pending` backslashes stand; `styles` are open.  The
answer is what is wrong with the first closing tag that ends nothing. -/
def markupDefect? (position pending : Nat) (styles : List String) : List Char → Option String
  | [] => none
  | c :: rest =>
    if c == '\\' then markupDefect? (position + 1) (pending + 1) styles rest
    else if c == '[' && Markup.opensTag rest && pending % 2 == 0 then
      let tag := rest.takeWhile (· != ']')
      match tag.takeWhile (· != '=') with
      | '/' :: closed =>
        let style := styleName closed
        match style.isEmpty, styles with
        | true, [] =>
          some ("closing tag '[/]' at position " ++ Decimal.intText position ++ " has nothing to close")
        | true, _ :: outer => markupDefect? (position + 1) 0 outer rest
        | false, _ =>
          if styles.contains style then markupDefect? (position + 1) 0 (styles.erase style) rest
          else
            some ("closing tag '[" ++ String.ofList tag ++ "]' at position " ++ Decimal.intText position
              ++ " doesn't match any open tag")
      | opened => markupDefect? (position + 1) 0 (styleName opened :: styles) rest
    else markupDefect? (position + 1) 0 styles rest

/-- The texts of what is shown. -/
def shownTexts : Shown → List String
  | .line markup => [markup]
  | .rule title => [title]
  | .table title columns rows => title :: columns ++ rows.flatten
  | .panel text _ => [text]

/-- A console that reads tags. -/
def console : Console := fun shown =>
  match (shownTexts shown).findSome? fun text => markupDefect? 0 0 [] text.toList with
  | some message => .error message
  | none => .ok ()

end Scaffold.Host
