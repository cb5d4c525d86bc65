import SpecVerdict.Document.Statistics

namespace SpecVerdict

def Json.number (x : Float) : Json := .float x

def Json.strings (texts : List String) : Json := .arr (texts.map .str)

def StatusTally.toJson (c : StatusTally) : Json :=
  .obj (Status.all.map fun status => (status.word, .int (c.get status)))

def StepVerdict.toJson (s : StepVerdict) : Json :=
  .obj <| [("keyword", .str s.step.keyword),
      ("text", .str (if s.text == "" then s.step.text else s.text)),
      ("line", .int s.step.line), ("status", .str s.status.word), ("duration", .number s.duration),
      ("error_message", .ofOption .str s.error)] ++
    (s.step.docString.map fun d => ("doc_string",
      Json.obj [("content", .str d.content), ("media_type", .ofOption .str d.mediaType)])).toList ++
    (s.step.table.map fun t => ("data_table", Json.arr (t.rows.map .strings))).toList ++
    if s.screenshots.isEmpty then [] else [("screenshots", .strings s.screenshots)]

def examplesToJson : List Examples → List RowVerdict → List Json
  | [], _ => []
  | block :: blocks, rows =>
    let own := rows.take block.rows.length
    .obj [("name", .str block.name), ("tags", .strings block.tags),
        ("header", .strings block.header),
        ("rows", .arr (own.map fun r =>
          .obj [("values", .strings r.row.cells), ("status", .str r.status.word)]))] ::
      examplesToJson blocks (rows.drop block.rows.length)

def ScenarioVerdict.toJson (f : Feature) (s : ScenarioVerdict) : Json :=
  .obj <| [("name", .str s.scenario.name),
      ("type", .str (if s.scenario.isOutline then "ScenarioOutline" else "Scenario")),
      ("line", .int s.scenario.line),
      ("rule", .ofOption (fun rule => .str rule.name) (s.rule.bind (f.rules[·]?))),
      ("description", .str s.scenario.description), ("tags", .strings s.scenario.tags),
      ("status", .str s.status.word), ("duration", .number s.duration),
      ("error_message", .ofOption .str s.error), ("failed_line", s.failedLine),
      ("steps", .arr (s.steps.map (·.toJson)))] ++
    if s.scenario.isOutline then [("examples", .arr (examplesToJson s.scenario.examples s.rows))]
    else []

def FeatureVerdict.toJson (v : FeatureVerdict) : Json :=
  let f := v.feature
  let background := (f.background.map (·.steps)).getD []
  .obj [("name", .str f.name), ("description", .str f.description), ("file_path", .str f.filePath),
    ("language", .str f.language), ("tags", .strings f.tags), ("status", .str v.status.word),
    ("duration", .number v.duration), ("counts", v.tally.toJson),
    ("background", .strings (background.map fun s => s.keyword ++ " " ++ s.text)),
    ("rules", .arr (f.rules.map fun rule => .obj [("name", .str rule.name),
      ("description", .str rule.description), ("tags", .strings rule.tags)])),
    ("scenarios", .arr (v.scenarios.map (·.toJson f)))]

namespace Document

def statisticsToJson (d : Document) : Json :=
  .obj [("total_features", .int d.features.length), ("total_scenarios", .int d.tally.total),
    ("total_steps", .int d.stepCount), ("passed", .int d.tally.passed),
    ("failed", .int d.tally.failed),
    ("skipped", .int d.tally.skipped), ("pending", .int d.tally.pending),
    ("undefined", .int d.tally.undefined), ("untested", .int d.tally.notExecuted),
    ("executed", .int d.tally.executed), ("unparsed_features", .int d.parseErrors.length),
    ("pass_rate", .number (d.rate .passed)), ("fail_rate", .number (d.rate .failed)),
    ("skip_rate", .number (d.rate .skipped)), ("coverage", .number d.coverage),
    ("tag_distribution", .obj (d.tagFrequencies.map fun (tag, count) => (tag, .int count)))]

def toJson (d : Document) : Json :=
  .obj [("title", d.title), ("generated_at", .ofOption (fun t => .str t.isoText) d.generatedAt),
    ("sources", .strings d.sources), ("statistics", d.statisticsToJson),
    ("features", .arr (d.features.map (·.toJson))),
    ("parse_errors", .strings (d.parseErrors.map (·.message))),
    ("report_errors", .strings (d.reportErrors.map (·.message)))]

end Document

end SpecVerdict
