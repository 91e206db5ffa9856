import LanguageServer.Capabilities
import LanguageServer.Json.Decode

/-! The client's feature tree, of which three leaves matter. -/

namespace LanguageServer

/-- The branch of a feature tree under a name, where a missing branch is empty. -/
def featureBranch? (tree : String → Option Json) (name : String) :
    Option (String → Option Json) := do
  -- A branch that is there must be an object.
  let branch ← Json.optional? Json.members? (tree name)
  return branch.getD fun _ => none

/-- The truth value of a leaf, false where it is missing. -/
def featureLeaf? (tree : String → Option Json) (name : String) : Option Bool := do
  -- A leaf that is there must be a truth value.
  let leaf ← Json.optional? Json.asBool? (tree name)
  return leaf.getD false

/-- The features that a client's tree announces. -/
def Capabilities.ofJson? (value : Json) : Option Capabilities := do
  -- All other branches and leaves are ignored.
  let tree ← value.members?
  let workspace ← featureBranch? tree "workspace"
  let textDocument ← featureBranch? tree "textDocument"
  let publishing ← featureBranch? textDocument "publishDiagnostics"
  let configuration ← featureLeaf? workspace "configuration"
  let workspaceFolders ← featureLeaf? workspace "workspaceFolders"
  let relatedInformation ← featureLeaf? publishing "relatedInformation"
  return { configuration, workspaceFolders, relatedInformation }

end LanguageServer
