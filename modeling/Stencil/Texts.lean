/-!
# Things made of texts

What a template session resolves is not one text but a thing that holds several: a document, or the
settings. `Texts` visits all of them in a fixed order and puts back what the visit returns, so that
everything else about the thing stays.
-/

namespace Stencil

/-- Things whose texts can be visited in order, each with an effect. -/
class Texts (α : Type) where
  mapTexts {m : Type → Type} [Monad m] (visit : String → m String) : α → m α

instance : Texts String where
  mapTexts visit s := visit s

end Stencil
