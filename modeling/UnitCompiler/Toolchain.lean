import UnitCompiler.Image
import UnitCompiler.Outline
import UnitCompiler.Inlining
import UnitCompiler.Tree.Parser

/-!
# Toolchains

The parts of a compilation that can be exchanged: the grammar of source texts, the way calls are
expanded, and what is made of a finished declaration.
-/

namespace UnitCompiler

/-- Gives the artifacts of a declaration that comes from a source file. -/
abbrev Backend := String → TypeDeclaration → Except (Failure ImageError) (List Artifact)

structure Toolchain where
  grammar : Grammar
  inliner : Inliner
  backend : Backend

namespace Toolchain

def standardGrammar : Grammar := fun source =>
  (UnitTree.parse source).mapError .error

/-- Every declaration becomes one image. -/
def imageBackend : Backend := fun sourceFile declaration =>
  (Image.generate sourceFile declaration).mapError .error

def standard : Toolchain := ⟨standardGrammar, Inlining.inline, imageBackend⟩

end Toolchain

end UnitCompiler
