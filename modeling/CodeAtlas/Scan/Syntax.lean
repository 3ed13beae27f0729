import CodeAtlas.Facts.Basic
import CodeAtlas.Scan.Pattern

/-!
What definitions, imports and comments look like in each language that the scanner knows, and what calls
and routes look like in all of them.
-/
namespace CodeAtlas.Scan
open Pattern

/-- The patterns of a language. A definition keeps its `name`, an import its `target`. -/
structure Grammar where
  definitions : List (Pattern × EntityKind)
  imports : List Pattern
  comments : List String

/-- A name kept under `name`. -/
def nameIdent : Pattern := named "name" ident

/-- A quotation mark, single or double. -/
def quoteMark : Pattern := among "\x27\""

/-- A non-empty text in quotation marks, kept under `target`. -/
def quotedTarget : Pattern := quoteMark ++ named "target" (plus (except "\x27\"")) ++ quoteMark

/-- The start of a line and its indentation. -/
def margin : Pattern := lineStart ++ blanks

/-- A word and the white space after it. -/
def keyword (w : String) : Pattern := lit w ++ gap

/-- A word that may be missing, with the white space after it. -/
def maybe (w : String) : Pattern := opt (keyword w)

/-- Any number of words, each with white space after it. -/
def modifiers (ws : List String) : Pattern := star (words ws ++ gap)

/-- Word characters and dots, kept under `target`. -/
def dottedTarget : Pattern := named "target" (plus (one fun c => Text.isWord c || c == '.'))

/-- Python. -/
def python : Grammar where
  definitions := [
    (margin ++ keyword "class" ++ nameIdent, .type),
    (margin ++ maybe "async" ++ keyword "def" ++ nameIdent ++ blanks ++ lit "(", .function)]
  imports := [
    margin ++ keyword "from" ++ dottedTarget ++ gap ++ lit "import" ++ wordEdge,
    margin ++ keyword "import" ++ dottedTarget]
  comments := ["#"]

/-- A name that may hold dollar signs. -/
def dollarIdent : Pattern :=
  one (fun c => c.isAlpha || c == '_' || c == '$') ++ star (one fun c => Text.isWord c || c == '$')

/-- JavaScript and TypeScript. -/
def script : Grammar where
  definitions := [
    (margin ++ maybe "export" ++ maybe "default" ++ maybe "abstract" ++ keyword "class" ++
      named "name" dollarIdent, .type),
    (margin ++ maybe "export" ++ keyword "interface" ++ named "name" dollarIdent, .interface),
    (margin ++ maybe "export" ++ maybe "default" ++ maybe "async" ++ lit "function" ++ opt (lit "*") ++
      gap ++ named "name" dollarIdent, .function),
    (margin ++ maybe "export" ++ words ["const", "let"] ++ gap ++ named "name" dollarIdent ++ blanks ++
      lit "=" ++ blanks ++ opt (lit "async" ++ blanks) ++
      ((lit "(" ++ star (except ")") ++ lit ")") <|> dollarIdent) ++ blanks ++ lit "=>", .function)]
  imports := [
    margin ++ keyword "import" ++ many false (except "\n") ++ wordEdge ++ lit "from" ++ gap ++ quotedTarget,
    margin ++ keyword "import" ++ quotedTarget,
    wordEdge ++ lit "require(" ++ blanks ++ quotedTarget ++ blanks ++ lit ")"]
  comments := ["//", "/*", "*"]

/-- A visibility mark that may be missing. -/
def visibility : Pattern :=
  opt (lit "pub" ++ opt (lit "(" ++ star (except ")") ++ lit ")") ++ gap)

/-- Rust. -/
def rust : Grammar where
  definitions := [
    (margin ++ visibility ++ words ["struct", "enum"] ++ gap ++ nameIdent, .type),
    (margin ++ visibility ++ maybe "unsafe" ++ keyword "trait" ++ nameIdent, .interface),
    (margin ++ visibility ++ maybe "const" ++ maybe "async" ++ maybe "unsafe" ++ keyword "fn" ++
      nameIdent, .function)]
  imports := [margin ++ maybe "pub" ++ keyword "use" ++
    named "target" (plus (one fun c => Text.isWord c || c == ':'))]
  comments := ["//"]

/-- Go. -/
def go : Grammar where
  definitions := [
    (lineStart ++ keyword "type" ++ nameIdent ++ gap ++ lit "struct" ++ wordEdge, .type),
    (lineStart ++ keyword "type" ++ nameIdent ++ gap ++ lit "interface" ++ wordEdge, .interface),
    (lineStart ++ keyword "func" ++ lit "(" ++ star (except ")") ++ lit ")" ++ blanks ++ nameIdent ++
      blanks ++ lit "(", .method),
    (lineStart ++ keyword "func" ++ nameIdent ++ blanks ++ lit "(", .function)]
  imports := [
    margin ++ keyword "import" ++ opt (plus wordChar ++ gap) ++ lit "\"" ++
      named "target" (plus (except "\"")) ++ lit "\"",
    lineStart ++ gap ++ opt (plus wordChar ++ gap) ++ lit "\"" ++
      named "target" (plus (one fun c => Text.isWord c || c == '.' || c == '/' || c == '-')) ++
      lit "\"" ++ blanks ++ lineEnd]
  comments := ["//"]

/-- Languages with classes, members and modifiers; `member` stands between the modifiers of a member and
its name. -/
def classLanguage (member : Pattern) : Grammar where
  definitions := [
    (margin ++ modifiers ["public", "private", "protected", "internal", "abstract", "final", "static",
      "sealed", "open", "data", "partial"] ++ words ["class", "object", "record", "struct"] ++ gap ++
      nameIdent, .type),
    (margin ++ modifiers ["public", "private", "protected", "internal", "sealed"] ++
      keyword "interface" ++ nameIdent, .interface),
    (margin ++ modifiers ["public", "private", "protected", "internal", "static", "final", "abstract",
      "synchronized", "override", "async", "virtual", "suspend", "open"] ++ member ++ nameIdent ++
      blanks ++ lit "(" ++ star (except ";") ++ lineEnd, .method)]
  imports := [
    margin ++ keyword "import" ++ maybe "static" ++ dottedTarget,
    margin ++ keyword "using" ++ dottedTarget ++ blanks ++ lit ";"]
  comments := ["//", "/*", "*"]

/-- The return type before the name of a member. -/
def returnType : Pattern :=
  plus (one fun c => Text.isWord c || "<>[],?".toList.contains c) ++ gap

/-- The mark of a function and its type parameters. -/
def funMark : Pattern := keyword "fun" ++ opt (lit "<" ++ star (except ">") ++ lit ">" ++ blanks)

/-- A character of a return type that may span several words. -/
def isTypeChar (c : Char) : Bool := Text.isWord c || Text.isBlank c || "*&:<>,".toList.contains c

/-- C and C++. -/
def cLike : Grammar where
  definitions := [
    (margin ++ words ["class", "struct"] ++ gap ++ nameIdent ++ blanks ++ opt (among ":\x7b") ++ blanks ++
      lineEnd, .type),
    (lineStart ++ nameStart ++ many false (one isTypeChar) ++
      plus (one fun c => Text.isBlank c || c == '*' || c == '&') ++
      named "name" (nameStart ++ star (one fun c => Text.isWord c || c == ':')) ++ blanks ++ lit "(" ++
      star (except ";") ++ lineEnd, .function)]
  imports := [margin ++ lit "#" ++ blanks ++ keyword "include" ++ among "<\"" ++
    named "target" (plus (except ">\"")) ++ among ">\""]
  comments := ["//", "/*", "*"]

/-- Ruby. -/
def ruby : Grammar where
  definitions := [
    (margin ++ words ["class", "module"] ++ gap ++ named "name" (one Char.isUpper ++ star wordChar), .type),
    (margin ++ keyword "def" ++ opt (lit "self.") ++ nameIdent, .function)]
  imports := [margin ++ lit "require" ++ opt (lit "_relative") ++ gap ++ quotedTarget]
  comments := ["#"]

/-- PHP. -/
def php : Grammar where
  definitions := [
    (margin ++ opt (words ["abstract", "final"] ++ gap) ++ keyword "class" ++ nameIdent, .type),
    (margin ++ keyword "interface" ++ nameIdent, .interface),
    (margin ++ modifiers ["public", "private", "protected", "static", "abstract", "final"] ++
      keyword "function" ++ nameIdent, .function)]
  imports := [margin ++ keyword "use" ++
    named "target" (plus (one fun c => Text.isWord c || c == '\\')) ++ blanks ++ lit ";"]
  comments := ["//", "#", "/*", "*"]

/-- The languages that the scanner knows, SQL apart. -/
def grammars : List (String × Grammar) := [
  ("python", python), ("javascript", script), ("typescript", script), ("rust", rust), ("go", go),
  ("java", classLanguage returnType), ("csharp", classLanguage returnType),
  ("kotlin", classLanguage funMark), ("scala", classLanguage (keyword "def")),
  ("swift", classLanguage (keyword "func")), ("c", cLike), ("cpp", cLike), ("ruby", ruby), ("php", php)]

/-- A call: a name before an opening bracket, with the receiver when one stands directly before it. -/
def callPattern : Pattern :=
  opt (named "receiver" ident ++ blanks ++ words [".", "::", "->"] ++ blanks) ++
    named "callee" ident ++ blanks ++ lit "("

/-- A route declared on one of the usual objects, with its method and path. -/
def routePattern : Pattern :=
  (lit "@" <|> wordEdge) ++ words ["app", "router", "bp", "blueprint", "api"] ++ lit "." ++
    named "method" (words ["get", "post", "put", "delete", "patch", "route"]) ++ lit "(" ++ blanks ++
    quoteMark ++ named "path" (plus (except "\x27\"")) ++ quoteMark

/-- Words that stand before a bracket or after a definition mark without being names. -/
def reserved : List String := [
  "if", "else", "elif", "for", "while", "switch", "match", "return", "catch", "sizeof", "function",
  "fn", "def", "class", "new", "typeof", "await", "yield", "assert", "print", "super", "self", "this",
  "not", "and", "or", "in", "with", "lambda", "async", "loop", "do", "try", "throw", "raise", "except",
  "import", "from", "delete", "void", "func"]

end CodeAtlas.Scan
