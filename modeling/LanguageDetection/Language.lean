import LanguageDetection.Characters

/-!
The languages a text can be detected as, with their names and file extensions. A name is read
without regard to case and to surrounding blanks; it may be the identifier, the display name or an
alias.
-/

namespace LanguageDetection

/-- A language, or the lack of one. -/
inductive Language where
  | javaScript
  | typeScript
  | python
  | java
  | c
  | cpp
  | go
  | rust
  | php
  | ruby
  | shell
  | sql
  | html
  | css
  | json
  /-- No language could be told. -/
  | unknown
deriving DecidableEq, Repr

namespace Language

/-- All members, `unknown` last. -/
def all : List Language :=
  [javaScript, typeScript, python, java, c, cpp, go, rust, php, ruby, shell, sql, html, css, json,
   unknown]

/-- Whether this is the member that stands for no language. -/
def isUnknown (language : Language) : Bool :=
  language = unknown

/-- The languages that can be detected. -/
def supported : List Language :=
  all.filter (!·.isUnknown)

/-- The identifier in lower case. It also decides between equal scores. -/
def id : Language → String
  | javaScript => "javascript"
  | typeScript => "typescript"
  | python => "python"
  | java => "java"
  | c => "c"
  | cpp => "cpp"
  | go => "go"
  | rust => "rust"
  | php => "php"
  | ruby => "ruby"
  | shell => "shell"
  | sql => "sql"
  | html => "html"
  | css => "css"
  | json => "json"
  | unknown => "unknown"

/-- The name shown to readers. -/
def displayName : Language → String
  | javaScript => "JavaScript"
  | typeScript => "TypeScript"
  | python => "Python"
  | java => "Java"
  | c => "C"
  | cpp => "C++"
  | go => "Go"
  | rust => "Rust"
  | php => "PHP"
  | ruby => "Ruby"
  | shell => "Shell"
  | sql => "SQL"
  | html => "HTML"
  | css => "CSS"
  | json => "JSON"
  | unknown => "Unknown"

/-- Further names, in lower case. -/
def aliases : Language → List String
  | javaScript => ["js", "node", "jsx", "ecmascript"]
  | typeScript => ["ts", "tsx"]
  | python => ["py", "python3"]
  | c => ["h"]
  | cpp => ["c++", "cxx", "cc", "hpp"]
  | go => ["golang"]
  | rust => ["rs"]
  | ruby => ["rb"]
  | shell => ["sh", "bash", "zsh"]
  | sql => ["mysql", "postgresql", "sqlite"]
  | html => ["htm", "xhtml"]
  | css => ["scss", "less"]
  | java | php | json | unknown => []

/-- The file extensions, without the dot and in lower case. -/
def extensions : Language → List String
  | javaScript => ["js", "mjs", "cjs", "jsx"]
  | typeScript => ["ts", "tsx", "mts", "cts"]
  | python => ["py", "pyw", "pyi"]
  | java => ["java"]
  | c => ["c", "h"]
  | cpp => ["cpp", "cc", "cxx", "hpp", "hh", "hxx"]
  | go => ["go"]
  | rust => ["rs"]
  | php => ["php", "phtml"]
  | ruby => ["rb", "rake", "gemspec"]
  | shell => ["sh", "bash", "zsh", "ksh"]
  | sql => ["sql"]
  | html => ["html", "htm", "xhtml"]
  | css => ["css", "scss", "less"]
  | json => ["json"]
  | unknown => []

/-- Whether a name in lower case is the identifier, the display name or an alias. -/
def hasName (language : Language) (name : List Char) : Bool :=
  name == language.id.toList ||
  name == Characters.lowercase language.displayName.toList ||
  language.aliases.any (name == ·.toList)

/-- The language of a name, whatever its case and the blanks around it. -/
def ofName? (name : String) : Option Language :=
  let needle := Characters.lowercase (Characters.trim name.toList)
  all.find? (·.hasName needle)

/-- The language whose identifier this is, to the letter. -/
def ofId? (id : String) : Option Language :=
  all.find? (·.id == id)

end Language

end LanguageDetection
