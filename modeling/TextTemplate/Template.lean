import TextTemplate.Json.Reader
import TextTemplate.Parser.Block
import TextTemplate.Render
/-! # Templates

A template is parsed once and rendered against any number of documents. A source that names a
filter that does not exist is refused when it is parsed.
-/

namespace TextTemplate

/-- The nodes of a source, not yet checked for unknown filters. -/
def parseNodes (source : String) (maxNestingDepth : Nat) : Except SyntaxError (List Node) :=
  (Parser.template maxNestingDepth).run' (Parser.start (tokenize source.toList))

/-- The nodes of a source. -/
def parseTemplate (source : String) (options : RenderOptions) :
    Except TemplateError (List Node) :=
  match parseNodes source options.maxNestingDepth with
  | .error error => .error (.malformed error)
  | .ok nodes =>
    match unknownFilterInNodes? nodes with
    | some call => .error (.unknownFilter call.name call.position)
    | none => .ok nodes

/-- A parsed template and the limits it renders with. -/
structure Template where
  nodes : List Node
  options : RenderOptions
deriving Repr

namespace Template

/-- The template of a source. -/
def parse (source : String) (options : RenderOptions) : Except TemplateError Template := do
  let nodes ← parseTemplate source options
  pure ⟨nodes, options⟩

/-- The output of a template for a document. -/
def render (template : Template) (root : Value) : Except TemplateError String :=
  ((Renderer.ofOptions template.options).render template.nodes root).1

end Template

/-- The output of a template source for a document text. The document is read first, so a fault in
it comes up before any in the template. -/
def renderText (document source : String) (options : RenderOptions) :
    Except TemplateError String := do
  let root ← readDocument document
  let template ← Template.parse source options
  template.render root

end TextTemplate
