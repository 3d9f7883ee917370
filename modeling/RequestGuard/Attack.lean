import RequestGuard.Pattern

namespace RequestGuard

open Pattern

namespace Attack

-- Script in markup

def scriptTag : Pattern :=
  ofList [char '<', blanks, keyword "script", edge]

def frameTag : Pattern :=
  ofList [char '<', blanks, oneOf [keyword "iframe", keyword "object", keyword "embed"], edge]

-- An attribute that names an event, anywhere in an unclosed tag.
def eventHandler : Pattern :=
  ofList [char '<', star (one (.except (.exactly '>'))),
    one (.either .blank (.anyOf ['/', '"', '\''])), keyword "on", plus (one .letter), blanks,
    char '=']

def scriptUrl : Pattern :=
  ofList [edge, or (keyword "javascript") (keyword "vbscript"), blanks, char ':']

def mediaCharacter : CharSet :=
  .either .letter (.either .digit (.anyOf ['.', '+', '-']))

def dataUrl : Pattern :=
  ofList [edge, keyword "data", blanks, char ':', blanks, plus (one .letter), char '/',
    plus (one mediaCharacter), blanks, one (.anyOf [';', ','])]

def script : Pattern :=
  oneOf [scriptTag, eventHandler, scriptUrl, dataUrl, frameTag]

-- Queries in text

def quote : Pattern :=
  char '\''

def unionSelect : Pattern :=
  ofList [edge, keyword "union", gap, optional (ofList [keyword "all", gap]), keyword "select",
    edge]

-- A condition behind a closing quote.
def quotedCondition : Pattern :=
  ofList [quote, blanks, or (keyword "or") (keyword "and"), gap, optional quote, wordChars,
    optional quote, blanks,
    oneOf [char '=', char '<', char '>', ofList [edge, keyword "like", edge]], blanks,
    optional quote, wordChars]

def alwaysTrue : Pattern :=
  ofList [edge, or (keyword "or") (keyword "and"), gap, char '1', blanks, char '=', blanks,
    char '1', edge]

def tableOrDatabase : Pattern :=
  or (keyword "table") (keyword "database")

def dropTable : Pattern :=
  ofList [keyword "drop", gap, tableOrDatabase]

def deleteFrom : Pattern :=
  ofList [keyword "delete", gap, keyword "from"]

def insertInto : Pattern :=
  ofList [keyword "insert", gap, keyword "into"]

def updateSet : Pattern :=
  ofList [keyword "update", gap, wordChars, gap, keyword "set"]

def selectFrom : Pattern :=
  ofList [keyword "select", gap, plus (one (.either .word (.either (.anyOf ['*', ',']) .blank))),
    gap, keyword "from"]

def dashes : Pattern :=
  ofList [char '-', char '-']

def slashStar : Pattern :=
  ofList [char '/', char '*']

-- A statement with a comment after it on the same line.
def commentedStatement : Pattern :=
  ofList [edge, oneOf [selectFrom, insertInto, deleteFrom, dropTable, updateSet], edge,
    star (one (.except (.exactly '\n'))), or dashes slashStar]

def stackedStatement : Pattern :=
  ofList [one (.anyOf [';', '\'']), blanks,
    oneOf [dropTable, deleteFrom, ofList [keyword "truncate", gap, keyword "table"],
      ofList [keyword "alter", gap, keyword "table"], insertInto, updateSet,
      ofList [keyword "exec", or (one .blank) (char '(')]]]

def quotedComment : Pattern :=
  ofList [quote, blanks, oneOf [dashes, char '#', slashStar]]

def delay : Pattern :=
  or (ofList [edge, or (keyword "pg_sleep") (keyword "benchmark"), blanks, char '('])
    (ofList [edge, keyword "waitfor", gap, keyword "delay", gap, quote])

def query : Pattern :=
  oneOf [unionSelect, quotedCondition, alwaysTrue, commentedStatement, stackedStatement,
    quotedComment, delay]

end Attack

def hasScript (s : String) : Bool :=
  Attack.script.occursIn s.toList

def hasQuery (s : String) : Bool :=
  Attack.query.occursIn s.toList

end RequestGuard
