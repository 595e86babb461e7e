import LanguageDetection.Error
import LanguageDetection.Pattern

/-!
# The catalog

Rules say which textual markers speak for or against a language.  The catalog has for each supported
language the signatures of its rules, and then one for each file extension.
-/

namespace LanguageDetection

/-!
## Rules and signatures

Rules and signatures. A rule says which textual marker speaks for or against a language and how
much it weighs; a signature is a rule of one language with its pattern read. The extension of a
file is a marker too, one that never occurs in the text.
-/

/-- How a marker bears on its language. -/
inductive MarkerClass where
  /-- Found in one language or nearly so. -/
  | strong
  /-- Common, and still telling. -/
  | weak
  /-- Speaks against the language. -/
  | disqualifier
deriving DecidableEq, Repr

namespace MarkerClass

/-- The identifier. -/
def id : MarkerClass → String
  | strong => "strong"
  | weak => "weak"
  | disqualifier => "disqualifier"

/-- The word used in explanations. -/
def describe : MarkerClass → String
  | strong => "strong"
  | weak => "weak"
  | disqualifier => "disqualifying"

end MarkerClass

/-- What kind of marker it is. -/
inductive MarkerKind where
  | keyword
  | operator
  | comment
  | pattern
  | extension
deriving DecidableEq, Repr

/-- The identifier. -/
def MarkerKind.id : MarkerKind → String
  | keyword => "keyword"
  | operator => "operator"
  | comment => "comment"
  | pattern => "pattern"
  | extension => "extension"

/-- The pattern that a marker of this kind is found by, from the characters it is written in; a
file extension has none. -/
def MarkerKind.matcher (kind : MarkerKind) (text : List Char) :
    Except PatternError (Option Pattern) :=
  match kind with
  | keyword => .ok (some (.wholeWord text))
  | operator => .ok (some (.literal text))
  | comment | pattern => (Pattern.read text).map some
  | extension => .ok none

/-- A marker as it is written down, before its pattern is read. -/
structure Rule where
  markerClass : MarkerClass
  kind : MarkerKind
  text : String
  label : String
  weight : Rat

namespace Rule

/-- A word by itself. -/
def keyword (markerClass : MarkerClass) (word : String) (weight : Rat) : Rule :=
  { markerClass, kind := .keyword, text := word, label := "`" ++ word ++ "` keyword", weight }

/-- A sequence of characters. -/
def operator (markerClass : MarkerClass) (sequence : String) (weight : Rat) : Rule :=
  { markerClass, kind := .operator, text := sequence, label := "`" ++ sequence ++ "`", weight }

/-- A pattern that finds comments. -/
def comment (markerClass : MarkerClass) (text label : String) (weight : Rat) : Rule :=
  { markerClass, kind := .comment, text, label, weight }

/-- Any other pattern. -/
def pattern (markerClass : MarkerClass) (text label : String) (weight : Rat) : Rule :=
  { markerClass, kind := .pattern, text, label, weight }

/-- The pattern the marker is found by in a text. -/
def matcher (rule : Rule) : Except PatternError (Option Pattern) :=
  rule.kind.matcher rule.text.toList

end Rule

/-- A marker of one language. -/
structure Signature where
  language : Language
  markerClass : MarkerClass
  kind : MarkerKind
  text : String
  label : String
  weight : Rat
  matcher : Option Pattern

namespace Signature

/-- The weight of a file extension. -/
def extensionWeight : Rat := 2

/-- The signature of a rule. -/
def ofRule (language : Language) (rule : Rule) : Except Error Signature :=
  match rule.matcher with
  | .ok matcher =>
    .ok { language, markerClass := rule.markerClass, kind := rule.kind, text := rule.text,
          label := rule.label, weight := rule.weight, matcher }
  | .error _ => .error (.invalidPattern language rule.text)

/-- The signature of a file extension. -/
def ofExtension (language : Language) (extension : String) : Signature :=
  { language, markerClass := .weak, kind := .extension, text := extension,
    label := "`." ++ extension ++ "` file extension", weight := extensionWeight, matcher := none }

/-- The weight, negative for a disqualifier. -/
def signedWeight (signature : Signature) : Rat :=
  match signature.markerClass with
  | .disqualifier => -signature.weight
  | .strong | .weak => signature.weight

/-- How often the marker occurs in a text. -/
def countIn (signature : Signature) (text : List Char) : Nat :=
  match signature.matcher with
  | some pattern => pattern.count text
  | none => 0

/-- Whether the marker is this file extension, whatever its case and the dots in front. -/
def matchesExtension (signature : Signature) (extension : String) : Bool :=
  signature.kind = .extension &&
    Characters.lowercase signature.text.toList ==
      Characters.lowercase (extension.toList.dropWhile (· == '.'))

end Signature

/-!
## The built-in rules

The built-in rules, in groups. A language has the rules of one or several groups; a group that
several languages share counts for each of them by itself.
-/

namespace Rules

/-- A block header that ends in a colon and is followed by an indented line, without braces and
semicolons. -/
def indentedBlock : String :=
  r"(?m)^[ \t]*(if|elif|else|for|while|def|class|try|except|finally|with)\b" ++
    "[^\\n\x7b;]*:[ \\t]*\\r?\\n[ \\t]+\\S"

/-- Punctuation and comments of the languages with braces. -/
def cFamily : List Rule :=
  [.operator .weak "\x7b" 0.5,
   .operator .weak ";" 0.5,
   .comment .weak r"(?m)^[ \t]*//" "`//` line comment" 1,
   .comment .weak r"/\*" "`/*` block comment" 1,
   .pattern .disqualifier indentedBlock "colon-terminated block with indented body" 5]

/-- JavaScript, which TypeScript contains. -/
def javaScriptCore : List Rule :=
  [.pattern .strong r"\bconsole\.(log|error|warn|info|debug)\s*\(" "`console.*` call" 8,
   .pattern .strong r"\bfunction\*?\s*\w*\s*\(" "`function` declaration" 6,
   .pattern .strong r"\b(const|let|var)\s+[\w$]+\s*=" "`const`/`let`/`var` binding" 4,
   .operator .strong "===" 6,
   .operator .strong "!==" 6,
   .pattern .strong r"\b(document|window)\.\w+" "DOM global" 7,
   .pattern .strong "\\brequire\\s*\\(\\s*['\"]" "`require(...)` import" 7,
   .pattern .strong r"\bmodule\.exports\b|\bexports\.\w+\s*=" "CommonJS export" 8,
   .pattern .strong "(?m)^[ \\t]*import\\s+[^;\\n]*\\bfrom\\s+['\"]" "ES module import" 7,
   .pattern .strong r"\bexport\s+(default|const|let|function|class|async)\b" "ES module export" 6,
   .pattern .strong r"\bundefined\b" "`undefined`" 4,
   .pattern .strong "\\)\\s*=>\\s*[\x7b(\\w]|\\b\\w+\\s*=>\\s*[\x7b(\\w]" "arrow function" 4,
   .pattern .strong r"\A#!.*\bnode\b" "node shebang" 10,
   .pattern .weak r"\bthis\.\w+" "`this.` member access" 2,
   .pattern .weak r"\bnew\s+[A-Z]\w*\s*\(" "`new` expression" 1,
   .pattern .weak r"\basync\s+function\b|\bawait\s+\w" "async/await" 2]

/-- What TypeScript adds to JavaScript. -/
def typeScriptOnly : List Rule :=
  [.pattern .strong
     (r"[\w)\]]\s*\??:\s*(string|number|boolean|any|unknown|never|void|object|" ++
       r"bigint)\b")
     "type annotation" 8,
   .pattern .strong "\\binterface\\s+\\w+(\\s+extends\\s+[\\w<>, .]+)?\\s*\\\x7b"
     "`interface` declaration" 8,
   .pattern .strong r"\btype\s+\w+(<[^>]*>)?\s*=[^=]" "`type` alias" 7,
   .pattern .strong r"\bimport\s+type\b" "`import type`" 9,
   .pattern .strong r"\b(readonly|declare|keyof|satisfies)\s+\w" "TypeScript modifier" 6,
   .pattern .strong r"\bas\s+(const|string|number|any|unknown|boolean)\b" "`as` type assertion" 7,
   .pattern .strong r"\b(private|public|protected)\s+(readonly\s+)?\w+\s*\??:"
     "annotated class member" 7,
   .pattern .strong r"<\s*(string|number|boolean|any)\s*(\[\])?\s*>" "generic type argument" 5]

/-- Java. -/
def java : List Rule :=
  [.pattern .strong r"\bpublic\s+(final\s+|abstract\s+)?(class|interface|enum|record)\s+\w+"
     "public type declaration" 8,
   .pattern .strong r"\bpublic\s+static\s+void\s+main\s*\(" "`main` entry point" 10,
   .pattern .strong r"\bSystem\.(out|err)\.print(ln|f)?\s*\(" "`System.out` printing" 9,
   .pattern .strong r"(?m)^[ \t]*import\s+(static\s+)?javax?\." "`java.*` import" 9,
   .pattern .strong r"(?m)^[ \t]*package\s+[\w.]+\s*;" "package declaration" 8,
   .pattern .strong
     ("@(Override|Autowired|Test|Deprecated|SuppressWarnings|FunctionalInterface|" ++
       r"Entity|Bean)\b")
     "annotation" 8,
   .pattern .strong
     (r"\b(public|private|protected)\s+(static\s+)?(final\s+)?(void|int|long|boolean|" ++
       r"double|float|char|byte|short|String|[A-Z]\w*(<[^>]*>)?(\[\])?)\s+\w+\s*[(;=]")
     "typed member declaration" 6,
   .pattern .strong
     (r"\b(String|Integer|Boolean|Long|Double|List|Map|Set|ArrayList|HashMap|" ++
       r"Optional)(<[^>]*>)?(\[\])?\s+\w+\s*[=;:)]")
     "boxed or collection variable" 5,
   .pattern .weak r"\b(extends|implements)\s+[A-Z]\w*" "inheritance clause" 2,
   .pattern .weak r"\b(int|boolean|double|long|char|float)\s+\w+\s*[=;(,)]"
     "primitive declaration" 2,
   .pattern .weak r"\bthis\.\w+" "`this.` member access" 2,
   .pattern .weak r"\bnew\s+[A-Z]\w*(<[^>]*>)?\s*\(" "`new` expression" 1]

/-- What C and C++ share. -/
def cCore : List Rule :=
  [.pattern .strong "(?m)^[ \\t]*#[ \\t]*include\\s*[<\"]" "`#include` directive" 9,
   .pattern .strong r"(?m)^[ \t]*#[ \t]*(define|ifdef|ifndef|endif|pragma)\b"
     "preprocessor directive" 7,
   .pattern .strong r"\b(int|void|char)\s+main\s*\(" "`main` function" 6,
   .pattern .strong r"\b(int|char|void|float|double|long|short|unsigned|const\s+char)\s*\*+\s*\w+"
     "pointer declaration" 5,
   .pattern .strong r"\bsizeof\s*\(" "`sizeof`" 6,
   .pattern .strong r"\bNULL\b" "`NULL`" 4,
   .pattern .weak r"\b(int|char|float|double|void|long|short|unsigned|size_t)\s+\w+\s*[=;(,)\[]"
     "C type declaration" 2,
   .operator .weak "->" 1]

/-- C without C++. -/
def cOnly : List Rule :=
  [.pattern .strong
     (r"\b(printf|scanf|malloc|calloc|realloc|free|fprintf|sprintf|snprintf|memcpy|" ++
       r"memset|strcpy|strlen|strcmp)\s*\(")
     "C standard library call" 7,
   .pattern .strong r"<(stdio|stdlib|string|math|stdint|stdbool|unistd|assert|ctype|errno|time)\.h>"
     "C standard header" 8,
   .pattern .strong r"\btypedef\s+(struct|enum|union)\b" "`typedef` declaration" 7,
   .pattern .weak "\\bstruct\\s+\\w+\\s*[\x7b*]" "struct declaration" 2]

/-- What C++ adds to C. -/
def cppOnly : List Rule :=
  [.pattern .strong
     (r"\bstd::(cout|cin|cerr|endl|string|vector|map|unique_ptr|shared_ptr|" ++
       "make_unique|make_shared|move|size_t|pair|sort|unordered_map|function|optional|" ++
       r"mutex)\b")
     "`std::` facility" 8,
   .pattern .strong r"\b(cout|cin|cerr|endl)\b" "iostream object" 8,
   .pattern .strong r"\btemplate\s*<" "`template` declaration" 9,
   .pattern .strong r"\busing\s+namespace\s+\w+" "`using namespace`" 9,
   .pattern .strong "\\bnamespace\\s+\\w+\\s*\\\x7b" "namespace block" 7,
   .pattern .strong
     (r"#[ \t]*include\s*<(iostream|vector|string|map|memory|algorithm|unordered_map|" ++
       "set|sstream|fstream|functional|utility)>")
     "C++ standard header" 8,
   .pattern .strong r"\b(public|private|protected):" "access specifier section" 6,
   .pattern .strong
     (r"\b(nullptr|constexpr|static_cast|dynamic_cast|reinterpret_cast|unique_ptr|" ++
       r"shared_ptr)\b")
     "modern C++ keyword" 8,
   .pattern .strong r"\b(printf|scanf|malloc|free|fprintf|sprintf|memcpy|strlen)\s*\("
     "C standard library call" 3,
   .pattern .weak r"\bclass\s+\w+" "class declaration" 1,
   .pattern .weak r"\w::\w" "scope resolution" 1]

/-- Go. -/
def go : List Rule :=
  [.pattern .strong r"(?m)^[ \t]*package\s+\w+[ \t]*$" "package clause" 8,
   .pattern .strong r"\bfunc\s+(\([^)]*\)\s*)?\w+\s*\(" "`func` declaration" 9,
   .pattern .strong r"\bfunc\s*\(" "function literal" 3,
   .operator .strong ":=" 6,
   .pattern .strong r"\bfmt\.\w+\s*\(" "`fmt` call" 9,
   .pattern .strong "\\btype\\s+\\w+\\s+(struct|interface)\\s*\\\x7b" "type declaration" 9,
   .pattern .strong "(?m)^[ \\t]*import\\s+(\\(|\"[\\w./-]+\")" "import declaration" 7,
   .pattern .strong r"\bif\s+err\s*!=\s*nil\b" "error check" 10,
   .pattern .strong r"\bchan\s+\w+|<-\s*\w+|\bgo\s+func\b|\bdefer\s+\w+" "channel or `defer`" 7,
   .pattern .strong r"\[\](string|int|int64|byte|float64|bool|rune|[A-Z]\w*)\b" "slice type" 4,
   .keyword .weak "nil" 2,
   .pattern .disqualifier r"(?m);[ \t]*$" "trailing semicolon" 1]

/-- Rust. -/
def rust : List Rule :=
  [.keyword .strong "fn" 8,
   .pattern .strong "\\b[a-z_][a-z0-9_]*!\\s*[\\(\\[\\\x7b]" "macro invocation" 7,
   .pattern .strong r"\blet\s+mut\b" "`let mut` binding" 9,
   .pattern .strong r"\bimpl\b(\s*<[^>]*>)?\s+[\w:]+" "`impl` block" 8,
   .pattern .strong r"\buse\s+(std|crate|super|self|core|alloc)::" "`use` path" 9,
   .pattern .strong r"\bpub(\([\w:]+\))?\s+(fn|struct|enum|mod|trait|use|const|static|type)\b"
     "`pub` item" 8,
   .pattern .strong r"#!?\[(derive|cfg|test|allow|deny|warn|inline|must_use|tokio::main)\b"
     "attribute" 9,
   .pattern .strong r"&(mut\s+|'[a-z_]+\s+)?(self|str)\b" "reference to `self`/`str`" 6,
   .pattern .strong r"\b(Option|Result|Vec|Box|Rc|Arc)<" "std generic type" 6,
   .pattern .strong "\\bmatch\\s+[\\w.&*()]+\\s*\\\x7b" "`match` expression" 7,
   .pattern .strong
     (r"->\s*(Self|Result|Option|bool|String|&?str|u8|u16|u32|u64|usize|i32|i64|f32|" ++
       r"f64|impl\b|Vec|Box)")
     "return type" 6,
   .pattern .strong r"\b(Some|Ok|Err)\(" "`Option`/`Result` variant" 5,
   .operator .weak "->" 1,
   .operator .weak "::" 1]

/-- PHP. -/
def php : List Rule :=
  [.pattern .strong r"<\?php\b" "`<?php` open tag" 10,
   .pattern .strong r"\$this->" "`$this->` access" 9,
   .pattern .strong r"\$[a-zA-Z_]\w*\s*=[^=>]" "`$variable` assignment" 5,
   .pattern .strong r"\$[a-zA-Z_]\w*->\w+" "object operator" 7,
   .pattern .strong r"\bfunction\s+&?\w+\s*\(\s*(\??[\w\\]+\s+)?\$"
     "function with `$` parameters" 8,
   .pattern .strong r"\b(public|private|protected)\s+(static\s+)?function\b"
     "method declaration" 8,
   .pattern .strong r"\b(isset|empty|unset|array_\w+|str_\w+|explode|implode|in_array)\s*\("
     "PHP builtin" 5,
   .pattern .strong r"(?m)^[ \t]*namespace\s+[\w\\]+\s*;" "namespace declaration" 8,
   .pattern .strong r"(?m)^[ \t]*use\s+[\w\\]+\\[\w\\]+(\s+as\s+\w+)?\s*;" "`use` import" 8,
   .pattern .strong r"\becho\s+[^;\n]*;" "`echo` statement" 3,
   .pattern .strong r"\$_(GET|POST|SERVER|SESSION|COOKIE|REQUEST)\b" "superglobal" 9,
   .pattern .strong r"\A#!.*\bphp\b" "php shebang" 10,
   .operator .weak "=>" 1,
   .operator .weak "->" 1]

/-- Python. -/
def python : List Rule :=
  [.keyword .strong "def" 8,
   .pattern .strong r"(?m)^[ \t]*(async\s+)?def\s+\w+\s*\([^)]*\)\s*(->\s*[^:\n]+)?:"
     "function definition" 6,
   .pattern .strong
     (r"(?m)^[ \t]*(from\s+[\w.]+\s+)?import\s+(\*|" ++
       r"[\w.]+(\s+as\s+\w+)?(\s*,\s*[\w.]+(\s+as\s+\w+)?)*)[ \t]*$")
     "import statement" 6,
   .keyword .strong "elif" 9,
   .pattern .strong
     (r"(?m)^[ \t]*(if|elif|else|for|while|class|try|except|finally|" ++
       "with)\\b[^\\n\x7b;]*:[ \\t]*$")
     "colon-terminated block header" 5,
   .pattern .strong r"\b(True|False|None)\b" "`True`/`False`/`None`" 4,
   .pattern .strong r"\b__\w+__\b" "dunder name" 5,
   .keyword .strong "lambda" 5,
   .pattern .strong r"\A#!.*\bpython[0-9.]*\b" "python shebang" 10,
   .pattern .weak r"\bself\.\w+" "`self.` attribute" 2,
   .pattern .weak r"\bprint\s*\(" "`print(` call" 2,
   .pattern .weak r"(?m)^[ \t]*@[\w.]+(\(.*\))?[ \t]*$" "decorator" 2,
   .pattern .weak r":[ \t]*\r?\n[ \t]+\S" "indentation-only block" 2,
   .comment .weak r"(?m)^[ \t]*#[ \t]" "`#` comment" 1,
   .pattern .disqualifier "(?m)[;\x7b][ \\t]*$" "line ending in `;` or `\x7b`" 1,
   .pattern .disqualifier "(?m)^[ \\t]*\\\x7d" "closing brace line" 1]

/-- Ruby. -/
def ruby : List Rule :=
  [.keyword .strong "def" 3,
   .pattern .strong r"(?m)^[ \t]*end[ \t]*$" "`end` line" 6,
   .keyword .strong "elsif" 9,
   .keyword .strong "unless" 5,
   .pattern .strong r"\bputs\s" "`puts` call" 7,
   .pattern .strong r"\battr_(accessor|reader|writer)\b" "attribute macro" 9,
   .pattern .strong r"\bdo\s*\|[^|\n]*\|" "block with parameters" 7,
   .pattern .strong r"\.each\b" "`.each` iteration" 6,
   .pattern .strong "(?m)^[ \\t]*require(_relative)?\\s+['\"]" "`require` statement" 5,
   .pattern .strong r"(?m)^[ \t]*class\s+\w+(\s*<\s*[\w:]+)?[ \t]*$" "class declaration" 4,
   .pattern .strong r"@[a-z_]\w*\s*=" "instance variable assignment" 4,
   .pattern .strong "#\\\x7b[^\x7d]*\\\x7d" "string interpolation" 6,
   .pattern .strong r"\A#!.*\bruby\b" "ruby shebang" 10,
   .pattern .weak r"(^|[\s(,\[]):[a-z_]\w*" "symbol literal" 2,
   .keyword .weak "nil" 2,
   .comment .weak r"(?m)^[ \t]*#[ \t]" "`#` comment" 1,
   .pattern .disqualifier r"(?m)^[ \t]*def\s+\w+\s*\([^)]*\)\s*(->[^:\n]*)?:[ \t]*$"
     "Python-style `def` header" 8,
   .pattern .disqualifier r"(?m);[ \t]*$" "trailing semicolon" 1]

/-- Shell scripts. -/
def shell : List Rule :=
  [.pattern .strong r"\A#!\s*/(usr/)?bin/(env\s+)?(ba|z|k|da)?sh\b" "shell shebang" 10,
   .pattern .strong r"(?m)^[ \t]*(fi|done|esac)\b[ \t]*(;.*)?$" "block terminator" 8,
   .pattern .strong r"(?m);[ \t]*(then|do)\b|^[ \t]*(then|do)[ \t]*$" "`then`/`do` keyword" 7,
   .pattern .strong "\\[\\[?\\s+(-[a-zA-Z]\x7b1,2\x7d\\s|!\\s|\"?\\$)" "test expression" 6,
   .operator .strong "$(" 6,
   .pattern .strong "\\$\\\x7b#\\w+|\\$\\\x7b\\w+(:-|:=|:\\?|:\\+|##?|%%?|/)"
     "parameter expansion" 6,
   .pattern .strong "\"\\$\\w+\"" "quoted variable" 3,
   .pattern .strong r"(?m)^[ \t]*(export|local|readonly)\s+\w+=" "exported assignment" 7,
   .pattern .strong r"\|\s*(grep|awk|sed|xargs|sort|uniq|wc|head|tail|cut|tr|tee)\b"
     "pipeline into coreutil" 8,
   .pattern .strong
     (r"(?m)^[ \t]*(sudo|apt-get|apt|yum|brew|npm|pip3?|cd|mkdir|rm|cp|mv|chmod|" ++
       r"chown|curl|wget|git|docker|ls|cat|source)\s")
     "shell command" 4,
   .pattern .strong r"\becho\s" "`echo`" 3,
   .pattern .strong "(?m)^[ \\t]*\\w+\\s*\\(\\)\\s*\\\x7b" "function definition" 4,
   .pattern .weak r"(?m)^[ \t]*[A-Za-z_]\w*=(\S|$)" "assignment without spaces" 2,
   .pattern .weak r"\$([0-9#@?*]|[A-Za-z_]\w*)" "`$var` expansion" 1,
   .comment .weak r"(?m)^[ \t]*#[ \t]" "`#` comment" 1,
   .pattern .disqualifier r"(?m)^[ \t]*(def|class|import|from|fn|func|public|private|package)\s"
     "declaration keyword" 3]

/-- SQL. -/
def sql : List Rule :=
  [.pattern .strong r"(?is)\bselect\b.+?\bfrom\b" "`SELECT ... FROM`" 9,
   .pattern .strong r"(?i)\binsert\s+into\b" "`INSERT INTO`" 10,
   .pattern .strong r"(?i)\bupdate\s+\w+\s+set\b" "`UPDATE ... SET`" 10,
   .pattern .strong r"(?i)\bdelete\s+from\b" "`DELETE FROM`" 10,
   .pattern .strong
     (r"(?i)\bcreate\s+(table|index|view|database|schema|unique\s+index|" ++
       r"(or\s+replace\s+)?(function|procedure|trigger))\b")
     "`CREATE` statement" 10,
   .pattern .strong r"(?i)\b(alter|drop)\s+(table|index|view|column|database)\b"
     "`ALTER`/`DROP` statement" 9,
   .pattern .strong r"(?i)\b(inner|left|right|full|outer|cross)\s+join\b" "join clause" 8,
   .pattern .strong r"(?i)\b(group|order)\s+by\b" "`GROUP BY`/`ORDER BY`" 7,
   .pattern .strong r"(?i)\b(varchar|primary\s+key|foreign\s+key|not\s+null|auto_increment)\b"
     "column definition" 6,
   .pattern .weak r"(?i)\bwhere\b" "`WHERE` clause" 2,
   .comment .weak r"(?m)^[ \t]*--" "`--` comment" 2,
   .pattern .disqualifier r"(?m)^[ \t]*(def|fn|func|function|class|import|#include)\b"
     "code declaration" 3]

/-- HTML. -/
def html : List Rule :=
  [.pattern .strong r"(?i)<!doctype\s+html" "doctype" 10,
   .pattern .strong
     ("(?i)<(html|head|body|div|span|p|a|ul|ol|li|table|thead|tbody|tr|td|th|form|" ++
       "input|button|label|select|option|textarea|script|style|meta|link|title|h[1-6]|" ++
       r"section|article|nav|header|footer|main|img|br|hr)\b[^>]*>")
     "HTML tag" 6,
   .pattern .strong
     ("(?i)</(html|head|body|div|span|p|a|ul|ol|li|table|tr|td|th|form|button|label|" ++
       "select|option|textarea|script|style|title|h[1-6]|section|article|nav|header|" ++
       "footer|main)>")
     "closing tag" 6,
   .comment .strong r"<!--[\s\S]*?-->" "`<!-- -->` comment" 5,
   .pattern .weak "\\b(class|id|href|src|alt|type|rel|name|content)=\"[^\"]*\"" "attribute" 2,
   .pattern .weak "&(nbsp|amp|lt|gt|quot|copy);" "character entity" 3,
   .pattern .disqualifier r"(?m)^[ \t]*(def|fn|func|function|import|const|let|var)\s"
     "code statement" 2]

/-- Style sheets. -/
def css : List Rule :=
  [.pattern .weak
     (r"(?m)^[ \t]*([.#][\w-]+|" ++
       "[a-z][a-z0-9]*)([ \\t]*[,>+~]?[ \\t]*([.#:]\x7b1,2\x7d[\\w-]+|" ++
       "[a-z][a-z0-9]*))*[ \\t]*\\\x7b")
     "selector block" 2,
   .pattern .strong
     (r"\b(color|background(-color|-image)?|margin(-(top|bottom|left|right))?|" ++
       "padding(-(top|bottom|left|right))?|font-(size|family|weight|style)|display|" ++
       "position|width|height|border(-(radius|top|bottom|left|right|color|width))?|" ++
       "text-(align|decoration|transform)|flex(-(direction|wrap|grow))?|" ++
       "grid-template-columns|z-index|opacity|overflow|cursor|transition|transform|" ++
       "box-shadow|line-height|justify-content|align-items)\\s*:\\s*[^;\x7b\x7d\\n]+;")
     "property declaration" 5,
   .pattern .strong r"(?m)^[ \t]*@(media|import|keyframes|font-face|supports|charset|tailwind)\b"
     "at-rule" 8,
   .pattern .strong r"\b\d+(\.\d+)?(px|em|rem|vh|vw|pt|deg|ms)\b" "length unit" 5,
   .pattern .strong "#[0-9a-fA-F]\x7b3\x7d([0-9a-fA-F]\x7b3\x7d)?\\b" "hex colour" 3,
   .pattern .strong
     (":\x7b1,2\x7d(hover|before|after|focus|active|visited|nth-child|first-child|" ++
       r"last-child|root)\b")
     "pseudo-class" 7,
   .operator .strong "!important" 9,
   .comment .weak r"/\*" "`/*` comment" 1,
   .pattern .disqualifier
     (r"(?m)^[ \t]*(function|def|fn|func|return|if|for|while|class|public|private|" ++
       r"let|const|var)\b")
     "statement keyword" 4]

/-- JSON documents. -/
def json : List Rule :=
  [.pattern .strong "\\A[\\\x7b\\[][\\s\\S]*[\\\x7d\\]]\\z" "single object or array document" 4,
   .pattern .strong
     ("\"(?:[^\"\\\\\\n]|\\\\.)*\"\\s*:\\s*(\"|-?\\d|\\\x7b|\\[|true\\b|false\\b|" ++
       r"null\b)")
     "quoted key/value pair" 5,
   .pattern .strong ":\\s*(true|false|null)\\s*[,\x7d\\]\\n]" "JSON literal value" 3,
   .pattern .disqualifier r"(?m)^[ \t]*//|/\*" "comment" 6,
   .pattern .disqualifier r"'[^'\n]*'" "single-quoted string" 2,
   .operator .disqualifier ";" 3,
   .pattern .disqualifier "[^=!<>:]=[^=>]" "assignment" 3,
   .pattern .disqualifier
     (r"(?m)^[ \t]*(function|def|var|let|const|return|import|class|fn|func|public|" ++
       r"package)\s")
     "code keyword" 6,
   .pattern .disqualifier ",\\s*[\\\x7d\\]]" "trailing comma" 3,
   .pattern .disqualifier r"(?m)^[ \t]*[A-Za-z_$][\w$]*\s*:" "unquoted key" 4]

/-- The rule groups of each language. -/
def table : List (Language × List (List Rule)) :=
  [(.javaScript, [javaScriptCore, cFamily]),
   (.typeScript, [javaScriptCore, typeScriptOnly, cFamily]),
   (.python, [python]),
   (.java, [java, cFamily]),
   (.c, [cCore, cOnly, cFamily]),
   (.cpp, [cCore, cppOnly, cFamily]),
   (.go, [go, cFamily]),
   (.rust, [rust, cFamily]),
   (.php, [php, cFamily]),
   (.ruby, [ruby]),
   (.shell, [shell]),
   (.sql, [sql]),
   (.html, [html]),
   (.css, [css]),
   (.json, [json])]

end Rules

/-! ## Catalogs -/

/-- The signatures of one language. -/
structure CatalogEntry where
  language : Language
  signatures : List Signature

/-- How many signatures of the entry have this class. -/
def CatalogEntry.countOf (entry : CatalogEntry) (markerClass : MarkerClass) : Nat :=
  entry.signatures.countP (·.markerClass = markerClass)

/-- The signatures of all supported languages, in the order of the languages. -/
structure Catalog where
  entries : List CatalogEntry

namespace Catalog

/-- The entry that a table of rule groups gives a language. A language without rules is an
error. -/
def entryOfTable (table : List (Language × List (List Rule))) (language : Language) :
    Except Error CatalogEntry := do
  let rules := (table.filter (·.1 = language)).flatMap fun row => row.2.flatten
  let signatures ← rules.mapM (Signature.ofRule language)
  if signatures.isEmpty then
    throw (.incompleteCatalog language)
  return { language,
           signatures := signatures ++ language.extensions.map (Signature.ofExtension language) }

/-- The catalog of a table of rule groups. -/
def ofTable (table : List (Language × List (List Rule))) : Except Error Catalog := do
  return { entries := ← Language.supported.mapM (entryOfTable table) }

/-- The catalog of the built-in rules, all of which can be read. -/
def builtin : Catalog :=
  (ofTable Rules.table).toOption.getD { entries := [] }

/-- The signatures of a language; the unknown language has none. -/
def lookup (catalog : Catalog) (language : Language) : Except Error (List Signature) :=
  match catalog.entries.find? (·.language = language) with
  | some entry => .ok entry.signatures
  | none => .error (.unknownLanguage language.id)

/-- The signatures of the language with this name. -/
def lookupName (catalog : Catalog) (name : String) : Except Error (List Signature) := do
  catalog.lookup (← Language.parse name)

/-- The language that a file extension belongs to. -/
def languageForExtension (catalog : Catalog) (extension : String) : Option Language :=
  (catalog.entries.find? (·.signatures.any (·.matchesExtension extension))).map (·.language)

end Catalog

end LanguageDetection
