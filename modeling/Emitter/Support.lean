import Emitter.Render.Error
import Emitter.Render.Options
import Emitter.Text.Indent

/-!
# The support class

`Builtins` is a Java class that can be emitted next to the rendered sources:
list and map types that print themselves, and a `println` that accepts null.
-/

namespace Emitter

namespace Support

/-- The name of the class. -/
def className : String := "Builtins"

/-- The lines of the class, each with its level. -/
def lines : List (Nat × String) :=
  [(0, "public class Builtins \x7b"),
    (1, "public static class List<T> extends java.util.ArrayList<T> \x7b"),
    (2, "@Override"),
    (2, "public String toString() \x7b"),
    (3, "StringBuilder out = new StringBuilder(\"[\");"),
    (3, "for (int i = 0; i < size(); i++) \x7b"),
    (4, "if (i > 0) \x7b"),
    (5, "out.append(\", \");"),
    (4, "\x7d"),
    (4, "out.append(String.valueOf(get(i)));"),
    (3, "\x7d"),
    (3, "return out.append(\"]\").toString();"),
    (2, "\x7d"),
    (1, "\x7d"),
    (0, ""),
    (1, "public static class Map<K, V> extends java.util.HashMap<K, V> \x7b\x7d"),
    (0, ""),
    (1, "public static void println(Object value) \x7b"),
    (2, "if (value == null) \x7b"),
    (3, "System.out.println(\"null\");"),
    (2, "\x7d else \x7b"),
    (3, "System.out.println(value.toString());"),
    (2, "\x7d"),
    (1, "\x7d"),
    (0, "\x7d")]

/-- The text of the class with lines at their levels. -/
def sourceText (width : Nat) : String :=
  "\n".intercalate (lines.map fun (level, text) =>
    String.ofList (List.replicate (level * width) ' ') ++ text)

/-- The source of the class. -/
def source (o : Options) : Rendered String :=
  if lines.all fun (level, _) => level * o.indentWidth < widthLimit then
    .ok (sourceText o.indentWidth)
  else .error .tooWide

/-- The file of the class. -/
def fileName (o : Options) : String := className ++ "." ++ o.target.extension

end Support

end Emitter
