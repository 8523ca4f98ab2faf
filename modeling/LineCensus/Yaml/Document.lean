/-
# YAML documents

A text holds at most one document here, which may have directives in front of it and
marks around it. A document without a node is different from none at all only in that
its node is an empty scalar.
-/

import LineCensus.Yaml.Node

namespace LineCensus.Yaml

/-- The handles that directives define, and the tokens after these. No handle may be defined twice,
and at most one directive may give the version, which has to be one of the first. -/
def readDirectives? (hasVersion : Bool) (handles : Handles) :
    List Token → Option (Handles × List Token)
  | .directive (.version major) :: rest =>
    if hasVersion ∨ major ≠ 1 then none else readDirectives? true handles rest
  | .directive (.handle handle meaning) :: rest =>
    if (handles.lookup handle).isSome then none
    else readDirectives? hasVersion ((handle, meaning) :: handles) rest
  | .directive .reserved :: rest => readDirectives? hasVersion handles rest
  | rest => some (handles, rest)

/-- Whether a token can only stand outside of a document. -/
def Token.isBoundary : Token → Bool
  | directive _ | documentStart | documentEnd => true
  | _ => false

/-- The node of a document after the mark that begins it. -/
def Node.afterMark? (handles : Handles) (tokens : List Token) : Option (Node × List Token) :=
  if tokens.head?.all (·.isBoundary) then some (.absent, tokens)
  else (Node.read? handles .block tokens).map fun (node, rest) => (node, rest.val)

/-- The node of the document that tokens spell, and what follows it. -/
def Node.document? (tokens : List Token) : Option (Node × List Token) :=
  match tokens with
  | .directive _ :: _ | .documentStart :: _ =>
    match readDirectives? false [] tokens with
    | some (handles, .documentStart :: rest) => Node.afterMark? (handles ++ defaultHandles) rest
    | _ => none
  | _ => (Node.read? defaultHandles .block tokens).map fun (node, rest) => (node, rest.val)

/-- The node of the only document of a text, if the tokens of the text spell one. Without tokens
there is no node. -/
def Node.ofTokens? (tokens : List Token) : Option (Option Node) :=
  if tokens.isEmpty then some none
  else
    match Node.document? tokens with
    | some (node, rest) => if rest.all (· = .documentEnd) then some (some node) else none
    | none => none

end LineCensus.Yaml
