import Phrasebook.Text.Basic

/-!
# Nodes of a YAML document

The tree that a document writes down, before aliases, tags and the meaning of
plain scalars are looked at.

## Main definitions

* `Yaml.Properties`: the tag and the anchor in front of a node
* `Yaml.Node`: a scalar, a list, a mapping or an alias
-/
namespace Phrasebook.Yaml

/-- What stands in front of a node: its tag, as written, and its anchor. -/
structure Properties where
  tag? : Option String := none
  anchor? : Option String := none
  deriving DecidableEq, Repr, Inhabited

/-- Whether nothing stands in front of a node. -/
def Properties.isEmpty (p : Properties) : Bool := p.tag?.isNone && p.anchor?.isNone

/-- The properties of two places in front of one node, the inner ones first. -/
def Properties.orElse (inner outer : Properties) : Properties where
  tag? := inner.tag?.or outer.tag?
  anchor? := inner.anchor?.or outer.anchor?

/-- A node of a document. -/
inductive Node where
  /-- A scalar and whether it is written plain, that is without quotes and not as
  a block. -/
  | scalar (properties : Properties) (plain : Bool) (text : String)
  | list (properties : Properties) (items : List Node)
  | mapping (properties : Properties) (entries : List (Node × Node))
  | alias (name : String)
  deriving Inhabited, Repr

/-- The node that is not written at all. -/
def Node.empty (p : Properties) : Node := .scalar p true ""

/-- Put outer properties in front of a node. -/
def Node.decorate (outer : Properties) : Node → Node
  | .scalar p plain text => .scalar (p.orElse outer) plain text
  | .list p items => .list (p.orElse outer) items
  | .mapping p entries => .mapping (p.orElse outer) entries
  | .alias name => .alias name

end Phrasebook.Yaml
