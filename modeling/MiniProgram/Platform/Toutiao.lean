import MiniProgram.Platform

/-!
The table of the `toutiao` platform.
-/

namespace MiniProgram

namespace Platform.Toutiao

/-- A prop whose native name follows from the casing rules. -/
def auto (prop : Text) : PropSpec := ⟨prop, []⟩

/-- A prop with a native name of its own. -/
def named (prop native : Text) : PropSpec := ⟨prop, native⟩

/-- A component of the table: its portable name, its tag and its props. -/
def entry (name tag : Text) (specs : List PropSpec) : Text × Text × List PropSpec :=
  (name, tag, specs)

/-- The components. -/
def table : List (Text × Text × List PropSpec) := [
  entry "View" "view" [
    auto "id", named "className" "class", auto "style", auto "hoverClass", auto "hoverStartTime",
    auto "hoverStayTime", auto "hoverStopPropagation", auto "animation", auto "onTap",
    auto "onLongTap", auto "onTouchStart", auto "onTouchMove", auto "onTouchEnd",
    auto "onTouchCancel"],
  entry "Text" "text" [
    auto "id", named "className" "class", auto "style", auto "selectable", auto "space",
    auto "decode", auto "onTap"],
  entry "Image" "image" [
    auto "id", named "className" "class", auto "style", auto "src", auto "mode", auto "lazyLoad",
    auto "onLoad", auto "onError", auto "onTap"],
  entry "Button" "button" [
    auto "id", named "className" "class", auto "style", auto "size", auto "type", auto "plain",
    auto "disabled", auto "loading", auto "formType", auto "openType", auto "hoverClass",
    auto "hoverStartTime", auto "hoverStayTime", auto "onTap", auto "onGetUserInfo",
    auto "onGetPhoneNumber"],
  entry "Input" "input" [
    auto "id", named "className" "class", auto "style", auto "value", auto "type",
    auto "password", auto "placeholder", auto "placeholderStyle", auto "placeholderClass",
    auto "disabled", named "maxLength" "maxlength", auto "focus", auto "cursor",
    auto "selectionStart", auto "selectionEnd", auto "confirmType", auto "onInput",
    auto "onFocus", auto "onBlur", auto "onConfirm"],
  entry "ScrollView" "scroll-view" [
    auto "id", named "className" "class", auto "style", auto "scrollX", auto "scrollY",
    auto "upperThreshold", auto "lowerThreshold", auto "scrollTop", auto "scrollLeft",
    auto "scrollIntoView", auto "scrollWithAnimation", auto "onScrollToUpper",
    auto "onScrollToLower", auto "onScroll"],
  entry "Swiper" "swiper" [
    auto "id", named "className" "class", auto "style", auto "indicatorDots",
    auto "indicatorColor", auto "indicatorActiveColor", auto "autoplay", auto "current",
    auto "interval", auto "duration", auto "circular", auto "vertical", auto "previousMargin",
    auto "nextMargin", auto "displayMultipleItems", auto "onChange", auto "onTransition",
    auto "onAnimationFinish"],
  entry "SwiperItem" "swiper-item" [
    auto "id", named "className" "class", auto "style", auto "itemId"],
  entry "Video" "video" [
    auto "id", named "className" "class", auto "style", auto "src", auto "duration",
    auto "controls", auto "danmuList", auto "danmuBtn", auto "enableDanmu", auto "autoplay",
    auto "loop", auto "muted", auto "initialTime", auto "pageGesture", auto "direction",
    auto "showProgress", auto "showFullscreenBtn", auto "showPlayBtn",
    auto "showCenterPlayBtn", auto "enableProgressGesture", auto "objectFit", auto "poster",
    auto "showMuteBtn", auto "title", auto "playBtnPosition", auto "enablePlayGesture",
    auto "autoPauseIfNavigate", auto "autoPauseIfOpenNative",
    named "vSlideGesture" "vslide-gesture",
    named "vSlideGestureInfullscreen" "vslide-gesture-in-fullscreen", auto "onPlay", auto "onPause",
    auto "onEnded", auto "onTimeUpdate", auto "onFullscreenChange", auto "onWaiting",
    auto "onError", auto "onProgress", auto "animation"]]

/-- The marker that binds event handlers. -/
def bindingMarker : Text := "bind"

/-- The component of an entry of the table. -/
def component? (e : Text × Text × List PropSpec) : Option Component :=
  (Component.ofSpecs e.1 e.2.1 bindingMarker e.2.2).toOption

/-- The platform. -/
def platform : Platform where
  name := "toutiao"
  bindingMarker := bindingMarker
  templateExt := ".ttml"
  directivePrefix := "tt:"
  components := table.filterMap component?

end Platform.Toutiao

end MiniProgram
