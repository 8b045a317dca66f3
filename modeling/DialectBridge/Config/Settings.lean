import DialectBridge.Config.Basic
import DialectBridge.Converter
/-!
# Settings

Several configuration files together make the settings of a conversion. The most specific file
comes first: its placeholder counts, and its rules run first; suppressed categories are collected
from all files.
-/
namespace DialectBridge

/-- A configuration and the file that it comes from. -/
structure LoadedConfig where
  path : Text
  config : Config
  deriving DecidableEq, Repr

/-- What several configuration files say together. -/
structure Settings where
  placeholder : Option Text
  suppressed : List Category
  /-- Every rule with the file that it comes from. -/
  rules : List (Text × CustomRule)
  deriving DecidableEq, Repr

namespace Settings

def empty : Settings := ⟨none, [], []⟩

/-- The categories `more` put behind those of `seen`, each once. -/
def addCategories (seen more : List Category) : List Category :=
  more.foldl (fun cs c => if c ∈ cs then cs else cs ++ [c]) seen

theorem mem_addCategories {seen more : List Category} {c : Category} :
    c ∈ addCategories seen more ↔ c ∈ seen ∨ c ∈ more := by
  unfold addCategories
  induction more generalizing seen with
  | nil => simp
  | cons d more ih =>
    simp only [List.foldl_cons, ih]
    split <;> grind

theorem nodup_addCategories {seen : List Category} (h : seen.Nodup) (more : List Category) :
    (addCategories seen more).Nodup := by
  unfold addCategories
  induction more generalizing seen with
  | nil => exact h
  | cons d more ih =>
    refine ih ?_
    by_cases hd : d ∈ seen
    · simpa [hd] using h
    · simpa [hd, List.nodup_append, h] using fun a ha (e : a = d) => hd (e ▸ ha)

/-- The settings with those of a less specific file. A placeholder that is set already stays. -/
def add (s : Settings) (loaded : LoadedConfig) : Settings where
  placeholder := s.placeholder.or loaded.config.placeholder
  suppressed := addCategories s.suppressed loaded.config.suppressed
  rules := s.rules ++ loaded.config.rules.map fun r => (loaded.path, r)

/-- The settings of several files, the most specific one first. -/
def merge (files : List LoadedConfig) : Settings := files.foldl add empty

def compileRules (s : Settings) : Except Error (List CompiledRule) :=
  s.rules.mapM fun (source, rule) => rule.compile source

end Settings

def Converter.ofSettings (s : Settings) : Except Error Converter := do
  return ⟨← s.compileRules, s.placeholder.getD defaultPlaceholder, s.suppressed⟩

end DialectBridge
