import MiniProgram.Bundle

/-!
The files of the scaffolds, in ascending order of their paths. A name that ends in `.tmpl` marks a
template.
-/

namespace MiniProgram

namespace Scaffold

/-- The package file. -/
def packageFile : Text :=
  "\x7b\n  \"name\": \"[[.Name]]\",\n  \"private\": true,\n  \"scripts\": \x7b\n"
    ++ "    \"build\": \"mini-build\",\n    \"dev\": \"mini-build --dev --watch\"\n  \x7d,\n"
    ++ "  \"dependencies\": \x7b\n    \"react\": \"^16.8.0\",\n    \"remax\": \"^1.0.0\"\n"
    ++ "  \x7d\n\x7d\n"

/-- The project file, with further settings after the directories. -/
def projectFile (settings : Text) : Text :=
  "platform: [[.Platform]]\nsourceDir: src\noutDir: dist\n" ++ settings ++ "unknownProps: drop\n"

/-- The stylesheet of the app. -/
def appStyles : Text := ".app \x7b\n  font-size: 14px;\n\x7d\n"

/-- The script of the app. -/
def appScript : Text := "import './app.css';\n\nexport default \x7b\x7d;\n"

/-- The index page, with further imports and the class of its view. -/
def indexPage (imports viewClass : Text) : Text :=
  "import * as React from 'react';\nimport \x7b View, Text \x7d from 'remax/[[.Platform]]';\n"
    ++ imports ++ "\nexport default function Index() \x7b\n  return (\n    <View className="
    ++ viewClass ++ ">\n      <Text>[[.Name]]</Text>\n    </View>\n  );\n\x7d\n"

/-- The files of the scaffold with plain stylesheets. -/
def minimalFiles : List Asset := [
  ⟨"mini.config.yaml.tmpl", projectFile []⟩,
  ⟨"package.json.tmpl", packageFile⟩,
  ⟨"src/app.css", appStyles⟩,
  ⟨"src/app.ts", appScript⟩,
  ⟨"src/pages/index/index.tsx.tmpl", indexPage [] "\"app\""⟩]

/-- The files of the scaffold with style modules. -/
def lessFiles : List Asset := [
  ⟨"mini.config.yaml.tmpl", projectFile "cssModules: true\n"⟩,
  ⟨"package.json.tmpl", packageFile⟩,
  ⟨"src/app.css", appStyles⟩,
  ⟨"src/app.ts", appScript⟩,
  ⟨"src/pages/index/index.tsx.tmpl",
    indexPage "import styles from './styles.less';\n" "\x7bstyles.title\x7d"⟩,
  ⟨"src/pages/index/styles.less", ".title \x7b\n  color: #333;\n  padding: 16px 24px;\n\x7d\n"⟩]

end Scaffold

end MiniProgram
