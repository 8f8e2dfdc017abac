import DbHandler.TableProperties.Statements

namespace DbHandler

/-- A font in memory: the drivers write its encoding, and read into its character set. -/
structure LoadedFont where
  font : Font
  characterSet : ℤ

/-- `TableProperties` with the members that only the readers fill. -/
structure LoadedProperties where
  comment : Text
  data : LoadedFont
  heading : LoadedFont
  label : LoadedFont

def LoadedProperties.written (p : LoadedProperties) : TableProperties where
  comment := p.comment
  dataFontName := p.data.font.name
  headingFontName := p.heading.font.name
  labelFontName := p.label.font.name
  dataFontSize := p.data.font.size
  dataFontEncoding := p.data.font.encoding
  dataFontPixelSize := p.data.font.pixelSize
  dataFontWeight := p.data.font.weight
  dataFontUnderline := p.data.font.underline
  dataFontStrikethrough := p.data.font.strikethrough
  dataFontItalic := p.data.font.italic
  headingFontSize := p.heading.font.size
  headingFontEncoding := p.heading.font.encoding
  headingFontPixelSize := p.heading.font.pixelSize
  headingFontWeight := p.heading.font.weight
  headingFontUnderline := p.heading.font.underline
  headingFontStrikethrough := p.heading.font.strikethrough
  headingFontItalic := p.heading.font.italic
  labelFontSize := p.label.font.size
  labelFontEncoding := p.label.font.encoding
  labelFontPixelSize := p.label.font.pixelSize
  labelFontWeight := p.label.font.weight
  labelFontUnderline := p.label.font.underline
  labelFontStrikethrough := p.label.font.strikethrough
  labelFontItalic := p.label.font.italic

end DbHandler
