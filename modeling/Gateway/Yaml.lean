import Gateway.Yaml.Layout
import Gateway.Yaml.Meaning

/-!
# YAML documents

The data of a text that holds one document in the block or flow style of YAML 1.2: its tokens
(`Token.ofText?`) make up a node (`Node.ofTokens?`), which has a meaning (`Node.data?`).
-/

namespace Gateway.Yaml

/-- The data of a text; none when it is no document. -/
def Data.ofText? (text : String) : Option Data := do
  let tokens ← Token.ofText? text
  let node ← Node.ofTokens? tokens
  node.data?

end Gateway.Yaml
