import SpecVerdict.Config.Value
import SpecVerdict.Name.Cache

namespace SpecVerdict

structure CorrelationSettings where
  /-- With more report features than this, features are looked up in an index. -/
  indexThreshold : Int := 5
  /-- Names shorter than this are never compared by parts. -/
  minPartialLength : Int := 5
  /-- Whether a name may match another one that contains it. -/
  allowPartialMatch : Bool := true
  /-- Whether scenarios of a feature without report feature are searched in the whole report. -/
  globalFallback : Bool := true
  /-- The title of the document. -/
  title : Json := .str "Living Documentation"
  /-- How many normal names are remembered. -/
  cacheBound : Int := LruCache.defaultBound

def CorrelationSettings.ofConfig (config : Json) : Except SettingFault CorrelationSettings := do
  let defaults : CorrelationSettings := {}
  let setting (key : String) (default : Json) := config.setting ("correlation." ++ key) default
  let indexThreshold ← (setting "index_threshold" (.int defaults.indexThreshold)).integer
  let minPartialLength ← (setting "min_partial_length" (.int defaults.minPartialLength)).integer
  let cacheBound ← (setting "cache_size" (.int defaults.cacheBound)).integer
  if (LruCache.ofBound? cacheBound).isNone then throw .noRoom
  return {
    indexThreshold, minPartialLength, cacheBound
    allowPartialMatch := (setting "allow_partial_match" (.bool true)).isTruthy
    globalFallback := (setting "global_scenario_fallback" (.bool true)).isTruthy
    title := config.filledSetting "project.title" defaults.title }

end SpecVerdict
