/-!
The style sheet of the light theme.
-/

namespace ThrustBench.Theme

def lightSheet : String :=
  String.join [
    "QFrame \x7b\n",
    "    background-color: #f5f5f5;\n",
    "\x7d\n",
    "\n",
    "QLabel \x7b\n",
    "    color: #222;\n",
    "    font-size: 10pt;\n",
    "    font-family: \"Roboto\";\n",
    "\x7d\n",
    "\n",
    "QLabel#large \x7b\n",
    "    color: #222;\n",
    "    font-size: 20pt;\n",
    "    font-family: \"Roboto\";\n",
    "\x7d\n",
    "\n",
    "QComboBox \x7b\n",
    "    background-color: #ffffff;\n",
    "    color: #222;\n",
    "    border: 1px solid #aaa;\n",
    "    border-radius: 4px;\n",
    "    min-width: 50px;\n",
    "    font-size: 10pt;\n",
    "    font-family: \"Roboto\";\n",
    "\x7d\n",
    "\n",
    "QComboBox::drop-down \x7b\n",
    "    subcontrol-origin: padding;\n",
    "    subcontrol-position: top right;\n",
    "    width: 20px;\n",
    "    border-left: 1px solid #aaa;\n",
    "    background-color: #e6e6e6;\n",
    "\x7d\n",
    "\n",
    "QComboBox::down-arrow \x7b\n",
    "    image: url(icons/down-triangle.png);\n",
    "    width: 12px;\n",
    "    height: 12px;\n",
    "\x7d\n",
    "\n",
    "QComboBox:disabled \x7b\n",
    "    background-color: #f0f0f0;\n",
    "    color: #999;\n",
    "    border: 1px solid #ccc;\n",
    "\x7d\n",
    "\n",
    "QComboBox:disabled::drop-down \x7b\n",
    "    background-color: #e0e0e0;\n",
    "    border-left: 1px solid #ccc;\n",
    "\x7d\n",
    "\n",
    "QComboBox QAbstractItemView \x7b\n",
    "    background-color: #ffffff;\n",
    "    border: 1px solid #bbb;\n",
    "    selection-background-color: #d0e7ff;\n",
    "    selection-color: #000;\n",
    "    color: #222;\n",
    "    padding: 2px;\n",
    "    outline: 0;\n",
    "\x7d\n",
    "\n",
    "QComboBox QAbstractItemView::item \x7b\n",
    "    padding: 4px 8px;\n",
    "    color: #007700;\n",
    "\x7d\n",
    "QComboBox QAbstractItemView::item:selected \x7b\n",
    "    background-color: #3d6fb4;\n",
    "    color: #fff;\n",
    "\x7d\n",
    "QComboBox QAbstractItemView::item:hover \x7b\n",
    "    background-color: #e6e6e6;\n",
    "\x7d\n",
    "\n",
    "QPlainTextEdit#console \x7b\n",
    "    background-color:  #ffffff;\n",
    "    color:             #111;\n",
    "    font-family:       \"Consolas\", \"Courier New\", monospace;\n",
    "    font-size:         10pt;\n",
    "    border:            1px solid #bbb;\n",
    "    border-radius:     4px;\n",
    "    padding:           6px;\n",
    "\x7d\n",
    "\n",
    "QPlainTextEdit \x7b\n",
    "    background-color:  #ffffff;\n",
    "    color:             #111;\n",
    "    font-family:       \"Consolas\", \"Courier New\", monospace;\n",
    "    font-size:         10pt;\n",
    "    border:            1px solid #bbb;\n",
    "    border-radius:     4px;\n",
    "    padding:           0px;\n",
    "\x7d\n",
    "\n",
    "/* scrollbars */\n",
    "QScrollBar:vertical \x7b\n",
    "    background:        #f0f0f0;\n",
    "    width:             10px;\n",
    "    margin:            0px;\n",
    "    border-radius:     5px;\n",
    "\x7d\n",
    "\n",
    "QScrollBar::handle:vertical \x7b\n",
    "    background:        #cccccc;\n",
    "    min-height:        20px;\n",
    "    border-radius:     5px;\n",
    "\x7d\n",
    "QScrollBar::handle:vertical:hover \x7b\n",
    "    background:        #bbbbbb;\n",
    "\x7d\n",
    "QScrollBar::handle:vertical:pressed \x7b\n",
    "    background:        #999999;\n",
    "\x7d\n",
    "\n",
    "QScrollBar::sub-line:vertical,\n",
    "QScrollBar::add-line:vertical \x7b\n",
    "    background:        none;\n",
    "    height:            0px;\n",
    "    subcontrol-origin: margin;\n",
    "\x7d\n",
    "QScrollBar::sub-page:vertical,\n",
    "QScrollBar::add-page:vertical \x7b\n",
    "    background:        none;\n",
    "\x7d\n",
    "\n",
    "QScrollBar:horizontal \x7b\n",
    "    background:        #f0f0f0;\n",
    "    height:            10px;\n",
    "    margin:            0px;\n",
    "    border-radius:     5px;\n",
    "\x7d\n",
    "\n",
    "QScrollBar::handle:horizontal \x7b\n",
    "    background:        #cccccc;\n",
    "    min-height:        20px;\n",
    "    border-radius:     5px;\n",
    "\x7d\n",
    "QScrollBar::handle:horizontal:hover \x7b\n",
    "    background:        #bbbbbb;\n",
    "\x7d\n",
    "QScrollBar::handle:horizontal:pressed \x7b\n",
    "    background:        #999999;\n",
    "\x7d\n",
    "\n",
    "QScrollBar::sub-line:horizontal,\n",
    "QScrollBar::add-line:horizontal \x7b\n",
    "    background:        none;\n",
    "    height:            0px;\n",
    "    subcontrol-origin: margin;\n",
    "\x7d\n",
    "QScrollBar::sub-page:horizontal,\n",
    "QScrollBar::add-page:horizontal \x7b\n",
    "    background:        none;\n",
    "\x7d\n",
    "/* scrollbars */\n",
    "\n",
    "QPushButton \x7b\n",
    "    color: #222;\n",
    "    background: #e6e6e6;\n",
    "    text-align: center;\n",
    "    font-size: 10pt;\n",
    "    font-family: \"Roboto\";\n",
    "    border: 1px solid #aaa;\n",
    "    border-radius: 4px;\n",
    "    padding: 4px;\n",
    "\x7d\n",
    "\n",
    "QPushButton:hover \x7b\n",
    "    background: #d0d0d0;\n",
    "\x7d\n",
    "\n",
    "QPushButton#greenBtn \x7b\n",
    "    color: #fff;\n",
    "    background: #4da77a;\n",
    "    text-align: center;\n",
    "    font-size: 10pt;\n",
    "    font-family: \"Roboto\";\n",
    "    border: 1px solid #3a7f5c;\n",
    "    border-radius: 4px;\n",
    "    padding: 4px;\n",
    "\x7d\n",
    "\n",
    "QFrame#panel \x7b\n",
    "    background-color: #ffffff;\n",
    "    border: 1px solid #aaa;\n",
    "    border-radius: 4px;\n",
    "\x7d\n",
    "\n",
    "QLineEdit \x7b\n",
    "    background-color:  #ffffff;\n",
    "    color:             #111;\n",
    "    font-family:       \"Consolas\", \"Courier New\", monospace;\n",
    "    font-size:         10pt;\n",
    "    border:            1px solid #bbb;\n",
    "    border-radius:     4px;\n",
    "    padding:           6px;\n",
    "\x7d\n",
    "\n",
    "/* Table view */\n",
    "QTableView \x7b\n",
    "    background-color: #ffffff;\n",
    "    color: #111;\n",
    "    gridline-color: #ccc;\n",
    "    selection-background-color: #3d6fb4;\n",
    "    selection-color: #ffffff;\n",
    "    border: 1px solid #bbb;\n",
    "    border-radius:     4px;\n",
    "    font-size: 14px;\n",
    "    outline: 0;\n",
    "\x7d\n",
    "\n",
    "QHeaderView::section \x7b\n",
    "    background-color: #e6e6e6;\n",
    "    color: #111;\n",
    "    padding: 4px;\n",
    "    border: 1px solid #ccc;\n",
    "    font-weight: bold;\n",
    "\x7d\n",
    "\n",
    "QHeaderView \x7b\n",
    "    background-color: #f5f5f5;\n",
    "\x7d\n",
    "\n",
    "QTableCornerButton::section \x7b\n",
    "    background-color: #e6e6e6;\n",
    "    border: 1px solid #ccc;\n",
    "\x7d\n",
    "/* Table view */\n",
    "\n",
    "/* Checkbox */\n",
    "QCheckBox \x7b\n",
    "    color: #222;\n",
    "    font-size: 14px;\n",
    "\x7d\n",
    "\n",
    "QCheckBox::indicator \x7b\n",
    "    width: 14px;\n",
    "    height: 14px;\n",
    "\x7d\n",
    "\n",
    "QCheckBox::indicator:unchecked \x7b\n",
    "    border: 2px solid #999;\n",
    "    background-color: #ffffff;\n",
    "    border-radius: 4px;\n",
    "\x7d\n",
    "\n",
    "QCheckBox::indicator:unchecked:hover \x7b\n",
    "    border: 2px solid #777;\n",
    "    background-color: #e6e6e6;\n",
    "\x7d\n",
    "\n",
    "QCheckBox::indicator:checked \x7b\n",
    "    border: 2px solid #4da77a;\n",
    "    background-color: #4da77a;\n",
    "    border-radius: 4px;\n",
    "    image: url(:/icons/checkmark_black.png);\n",
    "\x7d\n",
    "\n",
    "QCheckBox::indicator:checked:hover \x7b\n",
    "    border: 2px solid #3a7f5c;\n",
    "    background-color: #3a7f5c;\n",
    "\x7d\n",
    "/* Checkbox */\n",
    "\n",
    "/* QSplitter */\n",
    "QSplitter \x7b\n",
    "    background-color: #f5f5f5;\n",
    "    border: none;\n",
    "    padding: 0;\n",
    "\x7d\n",
    "\n",
    "QSplitter::handle \x7b\n",
    "    background-color: #e0e0e0;\n",
    "    border: 1px solid #ccc;\n",
    "\x7d\n",
    "\n",
    "QSplitter::handle:horizontal \x7b\n",
    "    height: 6px;\n",
    "    margin: 0 2px;\n",
    "\x7d\n",
    "\n",
    "QSplitter::handle:vertical \x7b\n",
    "    width: 6px;\n",
    "    margin: 2px 0;\n",
    "\x7d\n",
    "\n",
    "QSplitter::handle:hover \x7b\n",
    "    background-color: #d0d0d0;\n",
    "    border: 1px solid #bbb;\n",
    "\x7d\n",
    "\n",
    "QSplitter::handle:pressed \x7b\n",
    "    background-color: #b0b0b0;\n",
    "    border: 1px solid #999;\n",
    "\x7d\n",
    "/* QSplitter */\n",
    "\n",
    "/* QSlider */\n",
    "QSlider \x7b\n",
    "    background-color: transparent;\n",
    "    padding: 6px;\n",
    "\x7d\n",
    "/* QSlider */\n"]

end ThrustBench.Theme
