import Terminology.Document.Exchange
import Terminology.Text.Character
import Terminology.Yaml.Value

/-!
The configuration: what it holds, and reading it from YAML. Every section and every field may be
left out and then has its default; keys that mean nothing here are passed over.
-/

namespace Terminology

inductive LogLevel where
  | off | trace | debug | info | warn | error
  deriving DecidableEq

namespace LogLevel

def all : List LogLevel := [off, trace, debug, info, warn, error]

def text : LogLevel → String
  | off => "off"
  | trace => "trace"
  | debug => "debug"
  | info => "info"
  | warn => "warn"
  | error => "error"

def read? (s : String) : Option LogLevel := all.find? fun level => level.text == s

end LogLevel

inductive LogFormat where
  | compact | pretty | json
  deriving DecidableEq

namespace LogFormat

def all : List LogFormat := [compact, pretty, json]

def text : LogFormat → String
  | compact => "compact"
  | pretty => "pretty"
  | json => "json"

def read? (s : String) : Option LogFormat := all.find? fun format => format.text == s

end LogFormat

structure LoggerSettings where
  enable : Bool := true
  level : LogLevel := .info
  format : LogFormat := .compact
  deriving DecidableEq

structure ResolverSettings where
  preload : Bool := false
  deriving DecidableEq

structure Settings where
  logger : LoggerSettings := {}
  resolver : ResolverSettings := {}
  serializer : Document.Settings := {}
  deriving DecidableEq

namespace LoggerSettings

def ofYaml? (d : Yaml.Document) (y : Yaml) : Option LoggerSettings := do
  let entries ← y.entries? d
  let enable ← Yaml.field? entries "enable" true Yaml.boolean?
  let level ← Yaml.field? entries "level" .info fun v => v.word?.bind LogLevel.read?
  let format ← Yaml.field? entries "format" .compact fun v => v.word?.bind LogFormat.read?
  return ⟨enable, level, format⟩

end LoggerSettings

namespace ResolverSettings

def ofYaml? (d : Yaml.Document) (y : Yaml) : Option ResolverSettings := do
  let entries ← y.entries? d
  let preload ← Yaml.field? entries "preload" false Yaml.boolean?
  return ⟨preload⟩

end ResolverSettings

namespace Document.Settings

def ofYaml? (d : Yaml.Document) (y : Yaml) : Option Document.Settings := do
  let entries ← y.entries? d
  let default : Document.Settings := {}
  let indent ← Yaml.field? entries "indent" default.indent Yaml.natural?
  let maxDepth ← Yaml.field? entries "max_depth" default.maxDepth Yaml.natural?
  let maxBytes ← Yaml.field? entries "max_document_bytes" default.maxBytes Yaml.natural?
  return ⟨⟨maxDepth, maxBytes⟩, indent⟩

end Document.Settings

namespace Settings

inductive Error where
  | invalid
  | missing
  | notText
  deriving DecidableEq

/-- The failure to read the file at `path`, if it is one. -/
def Error.message? (path : String) : Error → Option String
  | invalid => none
  | missing => some s!"cannot read configuration `{path}`: No such file or directory (os error 2)"
  | notText => some s!"cannot read configuration `{path}`: stream did not contain valid UTF-8"

def ofYaml? (d : Yaml.Document) : Option Settings := do
  let entries ← d.root.entries? d
  let logger ← Yaml.field? entries "logger" {} (LoggerSettings.ofYaml? d)
  let resolver ← Yaml.field? entries "resolver" {} (ResolverSettings.ofYaml? d)
  let serializer ← Yaml.field? entries "serializer" {} (Document.Settings.ofYaml? d)
  return ⟨logger, resolver, serializer⟩

/-- Reads a configuration; blank text is the default one. -/
def ofText (text : String) : Except Error Settings :=
  if Text.isBlank text.toList then .ok {}
  else match (Yaml.read? text).bind ofYaml? with
    | some settings => .ok settings
    | none => .error .invalid

/-- Reads a configuration from the bytes of a file, which may not be there. -/
def ofFile (content : Option ByteArray) : Except Error Settings :=
  match content with
  | none => .error .missing
  | some bytes =>
      match String.fromUTF8? bytes with
      | none => .error .notText
      | some text => ofText text

def text (s : Settings) : String :=
  let flag (b : Bool) := if b then "true" else "false"
  "logger:\n  enable: " ++ flag s.logger.enable ++
    "\n  level: " ++ s.logger.level.text ++
    "\n  format: " ++ s.logger.format.text ++
    "\nresolver:\n  preload: " ++ flag s.resolver.preload ++
    "\nserializer:\n  indent: " ++ toString s.serializer.indent ++
    "\n  max_depth: " ++ toString s.serializer.maxDepth ++
    "\n  max_document_bytes: " ++ toString s.serializer.maxBytes ++ "\n"

end Settings

end Terminology
