import GradleScript.Scan.CharRole
import GradleScript.Text.Basic

namespace GradleScript

/-!
# Literals

The text of a value is a single quoted literal, perhaps with statement punctuation after it, or it
is taken as it stands.
-/

/-- Whether a character may follow a literal without being part of a larger expression. -/
def isTrailingPunctuation (ch : Char) : Bool :=
  ch == ',' || ch == ';' || ch == '\r' || ch == ' '

/-- Whether a text is punctuation only, perhaps with one line end at its very end. -/
def isPunctuation (text : Text) : Bool :=
  match text.dropWhile isTrailingPunctuation with
  | [] => true
  | ['\n'] => true
  | _ => false

/--
The content of a text that is one literal: it begins with a quote, has at least one character up
to the next equal quote, and only punctuation after that.  Any other text is left as it is.
-/
def trimQuotes (text : Text) : Text :=
  match text with
  | [] =>
      []
  | mark :: body =>
      if isQuote mark then
        match body.takeWhile (fun ch => ch != mark), body.dropWhile (fun ch => ch != mark) with
        | first :: content, _ :: trailing =>
            if isPunctuation trailing then
              first :: content
            else
              text
        | _, _ =>
            text
      else
        text

end GradleScript
