import MiniProgram.Text.Basic

/-!
The markup of a program: one base template, which renders a tree of host components, and a page
template that includes it.
-/

namespace MiniProgram

/-- A host component as the base template renders it: its tag and its attributes. -/
structure HostTemplate where
  tag : Text
  attrs : List Text
deriving DecidableEq, Repr

namespace HostTemplate

/-- A list rendering of children with a platform's directives. -/
def children (directive list : Text) : Text :=
  "<block " ++ directive ++ "for=\"\x7b\x7b" ++ list ++ ".children\x7d\x7d\" " ++ directive
    ++ "key=\"\x7b\x7bitem.id\x7d\x7d\">"

/-- The inclusion of the template of a child. -/
def child : Text :=
  "<template is=\"\x7b\x7b'REMAX_TPL_' + item.type\x7d\x7d\" "
    ++ "data=\"\x7b\x7bnode: item\x7d\x7d\"/>"

/-- An attribute bound to the prop of the same name. -/
def boundAttr (name : Text) : Text :=
  " " ++ name ++ "=\"\x7b\x7bnode.props['" ++ name ++ "']\x7d\x7d\""

/-- The template of one component. -/
def render (directive : Text) (h : HostTemplate) : Text :=
  "\n\n<template name=\"REMAX_TPL_" ++ h.tag ++ "\">\n  <" ++ h.tag ++ h.attrs.flatMap boundAttr
    ++ ">\n    " ++ children directive "node" ++ "\n      " ++ child ++ "\n    </block>\n  </"
    ++ h.tag ++ ">\n</template>"

/-- The base template for some components. -/
def renderBase (directive : Text) (components : List HostTemplate) : Text :=
  "<template name=\"REMAX_TPL\">\n  " ++ children directive "root" ++ "\n    " ++ child
    ++ "\n  </block>\n</template>\n\n<template name=\"REMAX_TPL_plain-text\">\n"
    ++ "  <block>\x7b\x7bnode.text\x7d\x7d</block>\n</template>"
    ++ components.flatMap (render directive) ++ "\n"

/-- The template of a page, which includes the base template at a path. -/
def renderPage (base : Text) : Text :=
  "<import src=\"/" ++ base ++ "\"/>\n"
    ++ "<template is=\"REMAX_TPL\" data=\"\x7b\x7broot: root\x7d\x7d\"/>\n"

end HostTemplate

end MiniProgram
