/-!
# Directives

The directives that are acted on can be renamed. An import is introduced by a keyword, and a file
asks to be expanded at most once by a line of its own.
-/
namespace ShaderInline

structure Directives where
  importKeyword : String := "#import"
  onceLine : String := "#pragma once"
  deriving DecidableEq, Repr

end ShaderInline
