import SpecVerdict.Text.Basic

namespace SpecVerdict

/-- Elements of a feature file that a line can open. -/
inductive HeaderRole where
  | feature
  | background
  | rule
  | scenario
  | outline
  | examples
  deriving DecidableEq, Repr

/-- What a step does: it sets the context, acts, checks, continues the step before, or continues
it with a contrast. -/
inductive StepRole where
  | context
  | action
  | outcome
  | conjunction
  | contrast
  deriving DecidableEq, Repr

inductive LineRole where
  | header (role : HeaderRole)
  | step (role : StepRole)
  deriving DecidableEq, Repr

namespace LineRole

/-- All roles, in the order in which equal keywords are preferred. -/
def all : List LineRole :=
  [.header .feature, .header .background, .header .rule, .header .scenario, .header .outline,
    .header .examples, .step .context, .step .action, .step .outcome, .step .conjunction,
    .step .contrast]

def word : LineRole → String
  | .header .feature => "feature"
  | .header .background => "background"
  | .header .rule => "rule"
  | .header .scenario => "scenario"
  | .header .outline => "scenarioOutline"
  | .header .examples => "examples"
  | .step .context => "given"
  | .step .action => "when"
  | .step .outcome => "then"
  | .step .conjunction => "and"
  | .step .contrast => "but"

end LineRole

structure KeywordEntry where
  role : LineRole
  keyword : String
  deriving DecidableEq, Repr

namespace KeywordEntry

/-- What follows the keyword where it applies to a line: a header's keyword needs a colon, a
step's a blank, unless it ends in an apostrophe or ends the line. -/
def remainder? (e : KeywordEntry) (line : Text) : Option Text :=
  (Text.after? e.keyword.toList line).bind fun rest =>
    match e.role, rest with
    | .header _, ':' :: rest => some (Text.trim rest)
    | .header _, _ => none
    | .step _, [] => some []
    | .step _, c :: _ =>
      if isIndent c || Text.endsWith ['\''] e.keyword.toList then some (Text.trim rest) else none

end KeywordEntry

/-- The keywords of one language, the roles in order and each role's words in order. -/
structure Dialect where
  language : String
  name : String
  native : String
  entries : List KeywordEntry

/-- A keyword found at the start of a line, with the rest of the line. -/
structure KeywordMatch where
  role : LineRole
  keyword : String
  rest : Text
  deriving DecidableEq, Repr

namespace Dialect

def words (dialect : Dialect) (role : LineRole) : List String :=
  (dialect.entries.filter (·.role == role)).map (·.keyword)

/-- The longest keyword that applies; of equal ones the first of the dialect. -/
def longest (line : Text) (best : Option KeywordMatch) : List KeywordEntry → Option KeywordMatch
  | [] => best
  | e :: entries =>
    match e.remainder? line, best with
    | none, _ => longest line best entries
    | some rest, none => longest line (some ⟨e.role, e.keyword, rest⟩) entries
    | some rest, some found =>
      if found.keyword.length < e.keyword.length then
        longest line (some ⟨e.role, e.keyword, rest⟩) entries
      else longest line best entries

def classify? (dialect : Dialect) (line : Text) : Option KeywordMatch :=
  longest line none dialect.entries

end Dialect

/-- The words of every role of one language; a star is a step keyword in all of them. -/
def Dialect.ofWords (language name native : String) (words : LineRole → List String) :
    Dialect where
  language := language
  name := name
  native := native
  entries := LineRole.all.flatMap fun role =>
    (words role ++ match role with | .step _ => ["*"] | .header _ => []).map (⟨role, ·⟩)

def englishDialect : Dialect :=
  .ofWords "en" "English" "English" fun
    | .header .feature => ["Feature", "Business Need", "Ability"]
    | .header .background => ["Background"]
    | .header .rule => ["Rule"]
    | .header .scenario => ["Scenario", "Example"]
    | .header .outline => ["Scenario Outline", "Scenario Template"]
    | .header .examples => ["Examples", "Scenarios"]
    | .step .context => ["Given"]
    | .step .action => ["When"]
    | .step .outcome => ["Then"]
    | .step .conjunction => ["And"]
    | .step .contrast => ["But"]

def germanDialect : Dialect :=
  .ofWords "de" "German" "Deutsch" fun
    | .header .feature => ["Funktionalität", "Funktion"]
    | .header .background => ["Grundlage", "Hintergrund", "Voraussetzungen", "Vorbedingungen"]
    | .header .rule => ["Regel", "Rule"]
    | .header .scenario => ["Szenario", "Beispiel"]
    | .header .outline => ["Szenariogrundriss", "Szenarien"]
    | .header .examples => ["Beispiele"]
    | .step .context => ["Angenommen", "Gegeben sei", "Gegeben seien"]
    | .step .action => ["Wenn"]
    | .step .outcome => ["Dann"]
    | .step .conjunction => ["Und"]
    | .step .contrast => ["Aber"]

def frenchDialect : Dialect :=
  .ofWords "fr" "French" "français" fun
    | .header .feature => ["Fonctionnalité"]
    | .header .background => ["Contexte"]
    | .header .rule => ["Règle"]
    | .header .scenario => ["Scénario", "Exemple"]
    | .header .outline => ["Plan du scénario", "Plan du Scénario"]
    | .header .examples => ["Exemples"]
    | .step .context =>
      ["Soit", "Sachant que", "Sachant qu'", "Sachant", "Etant donné que", "Etant donné qu'",
        "Etant donné", "Etant donnée", "Etant donnés", "Etant données", "Étant donné que",
        "Étant donné qu'", "Étant donné", "Étant donnée", "Étant donnés", "Étant données"]
    | .step .action => ["Quand", "Lorsque", "Lorsqu'"]
    | .step .outcome => ["Alors", "Donc"]
    | .step .conjunction => ["Et que", "Et qu'", "Et"]
    | .step .contrast => ["Mais que", "Mais qu'", "Mais"]

def spanishDialect : Dialect :=
  .ofWords "es" "Spanish" "español" fun
    | .header .feature => ["Característica", "Necesidad del negocio", "Requisito"]
    | .header .background => ["Antecedentes"]
    | .header .rule => ["Regla", "Regla de negocio"]
    | .header .scenario => ["Escenario", "Ejemplo"]
    | .header .outline => ["Esquema del escenario"]
    | .header .examples => ["Ejemplos"]
    | .step .context => ["Dado", "Dada", "Dados", "Dadas"]
    | .step .action => ["Cuando"]
    | .step .outcome => ["Entonces"]
    | .step .conjunction => ["Y", "E"]
    | .step .contrast => ["Pero"]

def dutchDialect : Dialect :=
  .ofWords "nl" "Dutch" "Nederlands" fun
    | .header .feature => ["Functionaliteit"]
    | .header .background => ["Achtergrond"]
    | .header .rule => ["Regel"]
    | .header .scenario => ["Scenario", "Voorbeeld"]
    | .header .outline => ["Abstract Scenario"]
    | .header .examples => ["Voorbeelden"]
    | .step .context => ["Gegeven", "Stel"]
    | .step .action => ["Als", "Wanneer"]
    | .step .outcome => ["Dan"]
    | .step .conjunction => ["En"]
    | .step .contrast => ["Maar"]

def portugueseDialect : Dialect :=
  .ofWords "pt" "Portuguese" "português" fun
    | .header .feature => ["Funcionalidade", "Característica", "Caracteristica"]
    | .header .background => ["Contexto", "Cenário de Fundo", "Cenario de Fundo", "Fundo"]
    | .header .rule => ["Regra"]
    | .header .scenario => ["Cenário", "Cenario", "Exemplo"]
    | .header .outline =>
      ["Esquema do Cenário", "Esquema do Cenario", "Delineação do Cenário", "Delineacao do Cenario"]
    | .header .examples => ["Exemplos", "Cenários", "Cenarios"]
    | .step .context => ["Dado", "Dada", "Dados", "Dadas"]
    | .step .action => ["Quando"]
    | .step .outcome => ["Então", "Entao"]
    | .step .conjunction => ["E"]
    | .step .contrast => ["Mas"]

def dialects : List Dialect :=
  [germanDialect, englishDialect, spanishDialect, frenchDialect, dutchDialect,
    portugueseDialect]

def dialectCodes : List String := dialects.map (·.language)

/-- The keywords of a language; without a language, and for an unknown one, the English ones. -/
def dialectFor (language : Option String) : Dialect :=
  let code := onText Text.trim (language.getD "")
  (dialects.find? (·.language == code)).getD englishDialect

end SpecVerdict
