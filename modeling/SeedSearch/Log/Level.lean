namespace SeedSearch.Log

-- What a word can stand for that is no level: a text and a table about formats.
inductive Unfit where
  | format
  | styles
  deriving DecidableEq, Repr

def Unfit.message : Unfit → String
  | format => "Unknown level: '%(levelname)s:%(name)s:%(message)s'"
  | styles =>
    "Level not an integer or a valid string: \x7b" ++
      "'%': (<class 'logging.PercentStyle'>, '%(levelname)s:%(name)s:%(message)s'), " ++
      "'\x7b': (<class 'logging.StrFormatStyle'>, '\x7blevelname\x7d:\x7bname\x7d:\x7bmessage\x7d'), " ++
      "'$': (<class 'logging.StringTemplateStyle'>, '$\x7blevelname\x7d:$\x7bname\x7d:$\x7bmessage\x7d')\x7d"

-- Besides the plain letters, dotless i, long s and two ligatures have plain
-- capitals.
def capitals : Char → List Char
  | 'ı' => ['I']
  | 'ſ' => ['S']
  | 'ﬅ' | 'ﬆ' => ['S', 'T']
  | c => [c.toUpper]

def upper (word : String) : String := String.ofList (word.toList.flatMap capitals)

def levelOr (otherwise : Int) (word : String) : Except Unfit Int :=
  match upper word with
  | "CRITICAL" | "FATAL" => .ok 50
  | "ERROR" => .ok 40
  | "WARNING" | "WARN" => .ok 30
  | "INFO" => .ok 20
  | "DEBUG" => .ok 10
  | "NOTSET" => .ok 0
  | "BASIC_FORMAT" => .error .format
  | "_STYLES" => .error .styles
  | _ => .ok otherwise

end SeedSearch.Log
