import DirectImports.Path

/-! The language that a file is written in, told by the extension of its name. -/

namespace DirectImports

structure Language where
  typescript : Bool
  jsx : Bool
deriving DecidableEq, Repr

def sourceExtensions : List Text :=
  ["ts", "tsx", "mts", "cts", "js", "jsx", "mjs", "cjs"].map String.toList

def typescriptExtensions : List Text :=
  ["ts", "tsx", "mts", "cts"].map String.toList

def jsxExtensions : List Text :=
  ["tsx", "jsx"].map String.toList

/-- Any extension but those of TypeScript stands for JavaScript. -/
def Language.ofPath (path : Text) : Language :=
  let extension := extension? path
  ⟨extension.any typescriptExtensions.contains, extension.any jsxExtensions.contains⟩

end DirectImports
